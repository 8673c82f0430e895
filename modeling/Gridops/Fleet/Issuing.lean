import Gridops.Fleet.Admission
import Gridops.Fleet.Protocol.Wire

/-!
# Building sealed commands

The two functions that build a command envelope, with the conversions from database columns that
`Store.prepareEnvelope` and `Store.issueCommand` leave out: `build_prepare_envelope` of
`fleet/admission.rs` and `issue_command` of `fleet/placement.rs`. Then what the agent makes of the
text it is sent.

An identifier column holds the number of its UUID; a number that is no UUID, or the nil one, stands
for a text that does not parse as an identifier.
-/

namespace Gridops.Fleet

open Gridops.Lib Gridops.Lib.Json Gridops.Lib.Text

/-- The errors of `FleetError` that a builder returns. -/
inductive BuildError
  | notFound | invalidIdentifier | fleet (error : FleetError)
deriving DecidableEq

namespace BuildError

def invariant (reason : String) : BuildError := .fleet (.invariant reason)

end BuildError

/-! ## Conversions of columns -/

namespace Builder

open BuildError Wire

def isUuid (n : Nat) : Bool := n != 0 && n < 2 ^ 128

def parseId (n : Nat) : Except BuildError Nat :=
  if isUuid n then .ok n else .error .invalidIdentifier

def identifier (n : Nat) (reason : String) : Except BuildError Nat :=
  if isUuid n then .ok n else .error (invariant reason)

/-- `HostEpoch::new`, `Generation::new`, `Revision::new` and `ExternalId::try_from` of a column. -/
def counterOf (value : Int) (reason : String) : Except BuildError Nat :=
  if 1 ≤ value ∧ value ≤ maxCounter then .ok value.toNat else .error (invariant reason)

def timestampOf (value : Millis) (reason : String) : Except BuildError Millis :=
  if WireTimestamp.Carries value then .ok value else .error (invariant reason)

def keyOf (text : String) (error : BuildError) : Except BuildError IdempotencyKey :=
  if Store.validateIdempotencyKey text then .ok (.ofText text) else .error error

def parseName {α : Type} (names : List (String × α)) (value reason : String) :
    Except BuildError α :=
  match names.find? (·.1 == value) with
  | some (_, a) => .ok a
  | none => .error (invariant reason)

variable (value : String)

def parseRuntimeKind : Except BuildError RuntimeKind :=
  parseName [("docker", .docker), ("tart_vm", .tartVm), ("native_process", .nativeProcess)] value
    "invalid runtime kind"

def parseExecutionOs : Except BuildError ExecutionOs :=
  parseName [("linux", .linux), ("macos", .macos), ("windows", .windows)] value
    "invalid execution OS"

def parseArchitecture : Except BuildError Architecture :=
  parseName [("x64", .x64), ("arm64", .arm64)] value "invalid architecture"

def parseMode : Except BuildError RunnerMode :=
  parseName [("ephemeral", .ephemeral), ("persistent", .persistent)] value "invalid profile mode"

def parseWorkload : Except BuildError PreparedWorkload :=
  parseName [("ci_runner", .ciRunner), ("fix_sandbox", .fixSandbox)] value "unknown workload kind"

def checkedText (ok : String → Bool) (value reason : String) : Except BuildError String :=
  if ok value then .ok value else .error (invariant reason)

/-- `serde_json::from_str` of a column. -/
def fromColumn {α : Type} (c : Codec α) (text reason : String) : Except BuildError α :=
  match (Json.parse text.toList).bind c.decode with
  | some a => .ok a
  | none => .error (invariant reason)

/-! ## The prepare command -/

structure TargetRow where
  kind : String
  installationId : Int
  repositoryId : Int
  organizationId : Int
  bitbucketConnectionId : String
  workspaceUuid : String
  repositoryUuid : String
deriving DecidableEq

def isBrace (c : Char) : Bool := c == openBrace || c == closeBrace

def trimBraces (cs : List Char) : List Char :=
  ((cs.dropWhile isBrace).reverse.dropWhile isBrace).reverse

/-- A Bitbucket UUID, with or without braces around it. -/
def targetUuid (text malformed nil : String) : Except BuildError Nat :=
  match Uuid.parse (String.ofList (trimBraces text.toList)) with
  | none => .error (invariant malformed)
  | some n => if n = 0 then .error (invariant nil) else .ok n

def targetFromDb (row : Option TargetRow) : Except BuildError CiTarget :=
  match row with
  | none => .error .notFound
  | some row =>
    if row.kind = "github_repository" then do
      let installation ← counterOf row.installationId "invalid target installation ID"
      let repository ← counterOf row.repositoryId "invalid target repository ID"
      return .githubRepository installation repository
    else if row.kind = "github_organization" then do
      let installation ← counterOf row.installationId "invalid target installation ID"
      let organization ← counterOf row.organizationId "invalid target organization ID"
      return .githubOrganization installation organization
    else if row.kind = "bitbucket_workspace" ∨ row.kind = "bitbucket_repository" then do
      let connection ← checkedText upstreamTextOk row.bitbucketConnectionId
        "invalid Bitbucket connection ID"
      let workspace ← targetUuid row.workspaceUuid "invalid Bitbucket workspace UUID"
        "nil Bitbucket workspace UUID"
      if row.kind = "bitbucket_workspace" then return .bitbucketWorkspace connection workspace
      else
        let repository ← targetUuid row.repositoryUuid "invalid Bitbucket repository UUID"
          "nil Bitbucket repository UUID"
        return .bitbucketRepository connection workspace repository
    else .error (invariant "invalid target kind")

/-- The columns of an intent and of the candidate it is admitted with. -/
structure PrepareRow where
  intentId : IntentId
  intentKind : String
  profileId : ProfileId
  generation : Int
  target : Option TargetRow
  hostId : HostId
  backendId : BackendId
  hostEpoch : Int
  authoritySessionId : SessionId
  controlPlaneIncarnation : Incarnation
  sessionId : Option SessionId
  profileRevision : Int
  cpuMillis : Int
  memoryMib : Int
  diskBytes : Int
  runtimeKind : String
  executionOs : String
  architecture : String
  mode : String
  requiresInteractive : Bool
  requiresDockerSocket : Bool
  labelsJson : String
  configJson : String
  image : String
deriving DecidableEq

theorem weight_network : stringWeight "network" ≤ nameCost := by decide

def operatorConfiguration : Codec (Option String) :=
  Record.object (Record.optional "network" upstreamText upstreamText_ne_null weight_network) true

def interactiveSession (row : PrepareRow) : Except BuildError (Option SessionId) :=
  if row.requiresInteractive then
    match row.sessionId with
    | none => .error (invariant "interactive session disappeared")
    | some session => (identifier session "invalid interactive session ID").map some
  else .ok none

def effectiveConfiguration (row : PrepareRow) : Except BuildError ExecutionConfiguration := do
  let network ← fromColumn operatorConfiguration row.configJson "invalid profile configuration"
  let sessionId ← interactiveSession row
  return ⟨network, sessionId, row.requiresInteractive, row.requiresDockerSocket⟩

def resourcesOf (row : PrepareRow) : Except BuildError ResourceRequest :=
  if row.cpuMillis < 0 ∨ row.cpuMillis ≥ 2 ^ 32 then .error (invariant "invalid profile CPU")
  else if row.memoryMib < 0 then .error (invariant "invalid profile memory")
  else if row.diskBytes < 0 then .error (invariant "invalid profile disk")
  else
    let request : ResourceRequest :=
      ⟨row.cpuMillis.toNat, row.memoryMib.toNat, row.diskBytes.toNat⟩
    if request.cpuMillis = 0 ∨ request.cpuMillis > maxCpuMillis ∨ request.memoryMib = 0
        ∨ request.memoryMib > maxMemoryMib ∨ request.diskBytes > maxDiskBytes then
      .error (invariant "invalid profile resources")
    else .ok request

/-- The envelope of a prepare command before it is sealed. -/
def buildPrepareEnvelope (row : PrepareRow) (placementId : PlacementId) (commandId : CommandId)
    (allocationIds : List AllocationId) (issuedAt deadlineAt : Millis) :
    Except BuildError AgentCommandEnvelope := do
  let target ← targetFromDb row.target
  let profileId ← parseId row.profileId
  let hostId ← parseId row.hostId
  let backendId ← parseId row.backendId
  let hostEpoch ← counterOf row.hostEpoch "invalid host epoch"
  let generation ← counterOf row.generation "invalid generation"
  let profileRevision ← counterOf row.profileRevision "invalid profile revision"
  let commandId ← identifier commandId "generated nil command ID"
  let operationId ← parseId row.intentId
  let authoritySessionId ← identifier row.authoritySessionId "invalid authority session ID"
  let incarnation ← identifier row.controlPlaneIncarnation "invalid control-plane incarnation"
  let runtimeKind ← parseRuntimeKind row.runtimeKind
  let executionOs ← parseExecutionOs row.executionOs
  let architecture ← parseArchitecture row.architecture
  let mode ← parseMode row.mode
  let image ← checkedText imageReferenceOk row.image "invalid profile image"
  let texts ← fromColumn anyText.list row.labelsJson "invalid profile labels"
  let labels ← texts.mapM (checkedText upstreamTextOk · "invalid profile label")
  let configuration ← effectiveConfiguration row
  let resourceRequest ← resourcesOf row
  let allocationIds ← allocationIds.mapM parseId
  let workload ← parseWorkload row.intentKind
  let idempotencyKey ← keyOf (IdempotencyKey.text (.prepare placementId))
    (invariant "invalid command idempotency key")
  let issuedAt ← timestampOf (issuedAt - commandClockSkewMillis) "invalid command issue timestamp"
  let deadlineAt ← timestampOf deadlineAt "invalid command deadline"
  return {
    commandId, operationId, idempotencyKey, hostId, hostEpoch,
    controlPlaneIncarnation := incarnation, authoritySessionId,
    scope := .placement placementId backendId generation,
    expectedRevision := profileRevision, issuedAt, deadlineAt, requestHash := "",
    operation := .prepareEnvironment
      { executionProfileId := profileId, profileRevision, workload, target, runtimeKind,
        executionOs, architecture, mode, image, labels, configuration, resourceRequest,
        allocationIds } }

def buildPlacementEnvelope (p : Placement) (h : Host) (session : SessionId)
    (incarnation : Incarnation) (commandId : CommandId) (operation : AgentOperation)
    (key : String) (ttl now : Millis) : Except BuildError AgentCommandEnvelope := do
  let commandId ← identifier commandId "command ID"
  let hostId ← parseId p.hostId
  let backendId ← parseId p.backendId
  let generation ← counterOf p.generation "generation"
  let operationId ← parseId p.intentId
  let idempotencyKey ← keyOf key (.fleet (.invalidRequest "idempotency key"))
  let hostEpoch ← counterOf h.epoch "epoch"
  let controlPlaneIncarnation ← parseId incarnation
  let authoritySessionId ← parseId session
  let expectedRevision ← counterOf p.profileRevision "revision"
  let issuedAt ← timestampOf (now - commandClockSkewMillis) "timestamp"
  let deadlineAt ← timestampOf (now + ttl) "timestamp"
  return {
    commandId, operationId, idempotencyKey, hostId, hostEpoch, controlPlaneIncarnation,
    authoritySessionId, scope := .placement p.id backendId generation, expectedRevision, issuedAt,
    deadlineAt, requestHash := "", operation }

/-! ## What the conversions return -/

theorem valid_of_isUuid {n : Nat} (h : isUuid n = true) : uuid.Valid n := by
  simp only [isUuid, Bool.and_eq_true, bne_iff_ne, decide_eq_true_eq] at h
  exact h

theorem parseId_ok {n m : Nat} (h : parseId n = .ok m) : m = n ∧ uuid.Valid m := by
  obtain ⟨hn, h⟩ := check_eq_ok h
  cases h
  exact ⟨rfl, valid_of_isUuid hn⟩

theorem identifier_ok {n m : Nat} {reason : String} (h : identifier n reason = .ok m) :
    m = n ∧ uuid.Valid m := by
  obtain ⟨hn, h⟩ := check_eq_ok h
  cases h
  exact ⟨rfl, valid_of_isUuid hn⟩

theorem counterOf_ok {value : Int} {reason : String} {m : Nat}
    (h : counterOf value reason = .ok m) : m = value.toNat ∧ counter.Valid m := by
  obtain ⟨hvalue, h⟩ := check_eq_ok h
  cases h
  refine ⟨rfl, ?_⟩
  show 1 ≤ value.toNat ∧ value.toNat ≤ maxCounter
  omega

theorem timestampOf_ok {value t : Millis} {reason : String} (h : timestampOf value reason = .ok t) :
    t = value ∧ WireTimestamp.Carries t := by
  obtain ⟨hvalue, h⟩ := check_eq_ok h
  cases h
  exact ⟨rfl, hvalue⟩

theorem keyOf_ok {text : String} {error : BuildError} {k : IdempotencyKey}
    (h : keyOf text error = .ok k) : k = .ofText text ∧ idempotencyKey.Valid k := by
  obtain ⟨htext, h⟩ := check_eq_ok h
  cases h
  refine ⟨rfl, ?_⟩
  show Store.validateIdempotencyKey (IdempotencyKey.ofText text).text = true ∧ _
  rw [IdempotencyKey.text_ofText]
  exact ⟨htext, rfl⟩

theorem checkedText_ok {ok : String → Bool} {value reason t : String}
    (h : checkedText ok value reason = .ok t) : t = value ∧ ok t = true := by
  obtain ⟨hvalue, h⟩ := check_eq_ok h
  cases h
  exact ⟨rfl, hvalue⟩

theorem fromColumn_ok {α : Type} {c : Codec α} {text reason : String} {a : α}
    (h : fromColumn c text reason = .ok a) : c.Valid a := by
  unfold fromColumn at h
  split at h
  · next hread =>
    cases h
    obtain ⟨j, -, hdecode⟩ := Option.bind_eq_some_iff.mp hread
    exact c.valid_of_decode hdecode
  · cases h

theorem mapM_ok {α ε : Type} {convert : α → Except ε α} {P : α → Prop}
    (hconvert : ∀ {a b}, convert a = .ok b → b = a ∧ P b) :
    ∀ {as bs : List α}, as.mapM convert = .ok bs → bs = as ∧ ∀ b ∈ bs, P b
  | [], bs, h => by
    cases h
    exact ⟨rfl, fun b hb => nomatch hb⟩
  | a :: as, bs, h => by
    rw [List.mapM_cons] at h
    obtain ⟨b, hb, h⟩ := bind_eq_ok h
    obtain ⟨tail, htail, h⟩ := bind_eq_ok h
    cases h
    obtain ⟨rfl, hP⟩ := hconvert hb
    obtain ⟨rfl, hall⟩ := mapM_ok hconvert htail
    refine ⟨rfl, fun d hd => ?_⟩
    rcases List.mem_cons.mp hd with rfl | hd
    · exact hP
    · exact hall d hd

theorem targetUuid_ok {text malformed nil : String} {n : Nat}
    (h : targetUuid text malformed nil = .ok n) : uuid.Valid n := by
  unfold targetUuid at h
  split at h
  · cases h
  · next hparse =>
    obtain ⟨hne, h⟩ := guard_eq_ok h
    cases h
    exact ⟨hne, Uuid.lt_of_parse hparse⟩

theorem targetFromDb_ok {row : Option TargetRow} {t : CiTarget} (h : targetFromDb row = .ok t) :
    ciTarget.Valid t := by
  unfold targetFromDb at h
  split at h
  · cases h
  split at h
  · obtain ⟨installation, hinstallation, h⟩ := bind_eq_ok h
    obtain ⟨repository, hrepository, h⟩ := bind_eq_ok h
    cases h
    exact ⟨(counterOf_ok hinstallation).2, (counterOf_ok hrepository).2⟩
  split at h
  · obtain ⟨installation, hinstallation, h⟩ := bind_eq_ok h
    obtain ⟨organization, horganization, h⟩ := bind_eq_ok h
    cases h
    exact ⟨(counterOf_ok hinstallation).2, (counterOf_ok horganization).2⟩
  obtain ⟨-, h⟩ := check_eq_ok h
  obtain ⟨connection, hconnection, h⟩ := bind_eq_ok h
  obtain ⟨workspace, hworkspace, h⟩ := bind_eq_ok h
  split at h
  · cases h
    exact ⟨(checkedText_ok hconnection).2, targetUuid_ok hworkspace⟩
  · obtain ⟨repository, hrepository, h⟩ := bind_eq_ok h
    cases h
    exact ⟨(checkedText_ok hconnection).2, targetUuid_ok hworkspace, targetUuid_ok hrepository⟩

theorem interactiveSession_ok {row : PrepareRow} {session : Option SessionId}
    (h : interactiveSession row = .ok session) : ∀ n ∈ session, uuid.Valid n := by
  unfold interactiveSession at h
  split at h
  · split at h
    · cases h
    · obtain ⟨m, hid, rfl⟩ := map_eq_ok h
      intro k hk
      cases hk
      exact (identifier_ok hid).2
  · cases h
    intro n hn
    cases hn

theorem effectiveConfiguration_ok {row : PrepareRow} {c : ExecutionConfiguration}
    (h : effectiveConfiguration row = .ok c) : executionConfiguration.Valid c := by
  obtain ⟨network, hnetwork, h⟩ := bind_eq_ok h
  have hvalid : ∀ s ∈ network, upstreamText.Valid s := fromColumn_ok hnetwork
  obtain ⟨session, hsession, h⟩ := bind_eq_ok h
  cases h
  exact ⟨hvalid, interactiveSession_ok hsession, trivial, trivial⟩

theorem resourcesOf_ok {row : PrepareRow} {r : ResourceRequest} (h : resourcesOf row = .ok r) :
    resourceRequest.Valid r := by
  unfold resourcesOf at h
  split at h
  · cases h
  split at h
  · cases h
  split at h
  · cases h
  obtain ⟨hbounds, h⟩ := guard_eq_ok h
  cases h
  push Not at hbounds
  obtain ⟨hcpu, hcpuMax, hmemory, hmemoryMax, hdisk⟩ := hbounds
  exact ⟨⟨Nat.one_le_iff_ne_zero.mpr hcpu, hcpuMax⟩,
    ⟨Nat.one_le_iff_ne_zero.mpr hmemory, hmemoryMax⟩, Nat.zero_le _, hdisk⟩

/-! ## What the builders return -/

/-- The prepare envelope of a row, as far as the row alone determines it. -/
def PrepareRow.envelope (row : PrepareRow) (placement : PlacementId) (command : CommandId)
    (issued deadline : Millis) (prepare : PrepareEnvironment) : AgentCommandEnvelope where
  commandId := command
  operationId := row.intentId
  idempotencyKey := .ofText (IdempotencyKey.text (.prepare placement))
  hostId := row.hostId
  hostEpoch := row.hostEpoch.toNat
  controlPlaneIncarnation := row.controlPlaneIncarnation
  authoritySessionId := row.authoritySessionId
  scope := .placement placement row.backendId row.generation.toNat
  expectedRevision := row.profileRevision.toNat
  issuedAt := issued - commandClockSkewMillis
  deadlineAt := deadline
  requestHash := ""
  operation := .prepareEnvironment prepare

theorem buildPrepareEnvelope_ok (T : TimeText) {row : PrepareRow} {placement : PlacementId}
    {command : CommandId} {allocations : List AllocationId} {issued deadline : Millis}
    {e : AgentCommandEnvelope} (hplacement : uuid.Valid placement)
    (h : buildPrepareEnvelope row placement command allocations issued deadline = .ok e) :
    (agentCommandEnvelope T).Valid e ∧ ∃ prepare,
      e = row.envelope placement command issued deadline prepare ∧
      prepare.profileRevision = row.profileRevision.toNat ∧
      prepare.allocationIds = allocations := by
  obtain ⟨target, htarget, h⟩ := bind_eq_ok h
  obtain ⟨profile, hprofile, h⟩ := bind_eq_ok h
  obtain ⟨host, hhost, h⟩ := bind_eq_ok h
  obtain ⟨backend, hbackend, h⟩ := bind_eq_ok h
  obtain ⟨epoch, hepoch, h⟩ := bind_eq_ok h
  obtain ⟨generation, hgeneration, h⟩ := bind_eq_ok h
  obtain ⟨revision, hrevision, h⟩ := bind_eq_ok h
  obtain ⟨commandId, hcommand, h⟩ := bind_eq_ok h
  obtain ⟨operation, hoperation, h⟩ := bind_eq_ok h
  obtain ⟨session, hsession, h⟩ := bind_eq_ok h
  obtain ⟨incarnation, hincarnation, h⟩ := bind_eq_ok h
  obtain ⟨runtime, -, h⟩ := bind_eq_ok h
  obtain ⟨os, -, h⟩ := bind_eq_ok h
  obtain ⟨arch, -, h⟩ := bind_eq_ok h
  obtain ⟨mode, -, h⟩ := bind_eq_ok h
  obtain ⟨image, himage, h⟩ := bind_eq_ok h
  obtain ⟨texts, -, h⟩ := bind_eq_ok h
  obtain ⟨labels, hlabels, h⟩ := bind_eq_ok h
  obtain ⟨configuration, hconfiguration, h⟩ := bind_eq_ok h
  obtain ⟨request, hrequest, h⟩ := bind_eq_ok h
  obtain ⟨ids, hids, h⟩ := bind_eq_ok h
  obtain ⟨workload, -, h⟩ := bind_eq_ok h
  obtain ⟨key, hkey, h⟩ := bind_eq_ok h
  obtain ⟨issuedAt, hissued, h⟩ := bind_eq_ok h
  obtain ⟨deadlineAt, hdeadline, h⟩ := bind_eq_ok h
  cases h
  have hvalidLabels : ∀ label ∈ labels, upstreamTextOk label = true :=
    (mapM_ok (P := fun label => upstreamTextOk label = true) checkedText_ok hlabels).2
  have hprepare : prepareEnvironment.Valid
      { executionProfileId := profile, profileRevision := revision, workload, target,
        runtimeKind := runtime, executionOs := os, architecture := arch, mode, image, labels,
        configuration, resourceRequest := request, allocationIds := ids } :=
    ⟨(parseId_ok hprofile).2, (counterOf_ok hrevision).2, trivial, targetFromDb_ok htarget, trivial,
      trivial, trivial, trivial, (checkedText_ok himage).2, hvalidLabels,
      effectiveConfiguration_ok hconfiguration, resourcesOf_ok hrequest,
      (mapM_ok parseId_ok hids).2⟩
  constructor
  · exact ⟨⟨Nat.le_refl 1, Nat.le_refl 1⟩, (identifier_ok hcommand).2, (parseId_ok hoperation).2,
      (keyOf_ok hkey).2, (parseId_ok hhost).2, (counterOf_ok hepoch).2,
      (identifier_ok hincarnation).2, (identifier_ok hsession).2,
      ⟨hplacement, (parseId_ok hbackend).2, (counterOf_ok hgeneration).2⟩,
      (counterOf_ok hrevision).2, (timestampOf_ok hissued).2, (timestampOf_ok hdeadline).2, rfl,
      hprepare⟩
  · rw [(identifier_ok hcommand).1, (parseId_ok hoperation).1,
      (keyOf_ok hkey).1, (parseId_ok hhost).1, (counterOf_ok hepoch).1,
      (identifier_ok hincarnation).1, (identifier_ok hsession).1, (parseId_ok hbackend).1,
      (counterOf_ok hgeneration).1, (timestampOf_ok hissued).1, (timestampOf_ok hdeadline).1,
      (counterOf_ok hrevision).1]
    exact ⟨_, rfl, rfl, (mapM_ok parseId_ok hids).1⟩

theorem buildPlacementEnvelope_ok (T : TimeText) {p : Placement} {host : Host}
    {session : SessionId} {incarnation : Incarnation} {command : CommandId}
    {operation : AgentOperation} {key : String} {ttl now : Millis} {e : AgentCommandEnvelope}
    (hplacement : uuid.Valid p.id) (hoperation : (agentOperation T).Valid operation)
    (h : buildPlacementEnvelope p host session incarnation command operation key ttl now = .ok e) :
    (agentCommandEnvelope T).Valid e ∧
      e = placementEnvelope p host session incarnation command operation (.ofText key) ttl now := by
  obtain ⟨commandId, hcommand, h⟩ := bind_eq_ok h
  obtain ⟨hostId, hhost, h⟩ := bind_eq_ok h
  obtain ⟨backend, hbackend, h⟩ := bind_eq_ok h
  obtain ⟨generation, hgeneration, h⟩ := bind_eq_ok h
  obtain ⟨operationId, hid, h⟩ := bind_eq_ok h
  obtain ⟨idempotencyKey, hkey, h⟩ := bind_eq_ok h
  obtain ⟨epoch, hepoch, h⟩ := bind_eq_ok h
  obtain ⟨plane, hplane, h⟩ := bind_eq_ok h
  obtain ⟨sessionId, hsession, h⟩ := bind_eq_ok h
  obtain ⟨revision, hrevision, h⟩ := bind_eq_ok h
  obtain ⟨issuedAt, hissued, h⟩ := bind_eq_ok h
  obtain ⟨deadlineAt, hdeadline, h⟩ := bind_eq_ok h
  cases h
  constructor
  · exact ⟨⟨Nat.le_refl 1, Nat.le_refl 1⟩, (identifier_ok hcommand).2, (parseId_ok hid).2,
      (keyOf_ok hkey).2, (parseId_ok hhost).2, (counterOf_ok hepoch).2, (parseId_ok hplane).2,
      (parseId_ok hsession).2,
      ⟨hplacement, (parseId_ok hbackend).2, (counterOf_ok hgeneration).2⟩,
      (counterOf_ok hrevision).2, (timestampOf_ok hissued).2, (timestampOf_ok hdeadline).2, rfl,
      hoperation⟩
  · rw [placementEnvelope, (identifier_ok hcommand).1, (parseId_ok hid).1, (keyOf_ok hkey).1,
      (parseId_ok hhost).1, (counterOf_ok hepoch).1, (parseId_ok hplane).1,
      (parseId_ok hsession).1, (parseId_ok hbackend).1, (counterOf_ok hgeneration).1,
      (counterOf_ok hrevision).1, (timestampOf_ok hissued).1, (timestampOf_ok hdeadline).1]
    simp

end Builder

/-! ## Sealed envelopes -/

open Builder Wire

/-- What `insert_admission` seals for a new placement. -/
def sealedPrepare (S : Sha256) (T : TimeText) (row : PrepareRow) (placement : PlacementId)
    (command : CommandId) (allocations : List AllocationId) (now : Millis) :
    Except BuildError AgentCommandEnvelope := do
  let e ← buildPrepareEnvelope row placement command allocations now (now + prepareDeadlineMillis)
  match e.sealHash (envelopeHash S T) with
  | .error _ => .error (.invariant "invalid prepare command envelope")
  | .ok e => .ok e

/-- What `issue_command` seals for a placement whose host has work authority. -/
def Store.issuedEnvelope (S : Sha256) (T : TimeText) (s : Store) (placement : PlacementId)
    (operation : AgentOperation) (key : String) (ttl : Millis) (freshId : CommandId)
    (now : Millis) : Except BuildError (Option AgentCommandEnvelope) :=
  match s.placements.find placement with
  | none => .ok none
  | some p =>
    match s.issuingHost p now with
    | none => .ok none
    | some (h, session, incarnation) => do
      let e ← buildPlacementEnvelope p h session incarnation freshId operation key ttl now
      match e.sealHash (envelopeHash S T) with
      | .error _ => .error (.fleet (.invalidRequest "command shape"))
      | .ok e => .ok (some e)

/-- The envelopes the control plane seals at a time, for identifiers and operations that are values
of their types. -/
inductive Built (S : Sha256) (T : TimeText) (now : Millis) : AgentCommandEnvelope → Prop
  | prepare {row : PrepareRow} {placement : PlacementId} {command : CommandId}
      {allocations : List AllocationId} {e : AgentCommandEnvelope}
      (hplacement : uuid.Valid placement)
      (hsealed : sealedPrepare S T row placement command allocations now = .ok e) : Built S T now e
  | issue {s : Store} {placement : PlacementId} {operation : AgentOperation} {key : String}
      {ttl : Millis} {command : CommandId} {e : AgentCommandEnvelope}
      (hplacement : uuid.Valid placement) (hoperation : (agentOperation T).Valid operation)
      (hsealed : s.issuedEnvelope S T placement operation key ttl command now = .ok (some e)) :
      Built S T now e

theorem sealHash_cases {digest : AgentCommandEnvelope → String} {e e' : AgentCommandEnvelope}
    (h : e.sealHash digest = .ok e') :
    e.checkShape = .ok () ∧ e' = { e with requestHash := e.canonicalHash digest } := by
  obtain ⟨⟨⟩, hshape, h⟩ := bind_eq_ok h
  cases h
  exact ⟨hshape, rfl⟩

theorem sealedPrepare_ok {S : Sha256} {T : TimeText} {row : PrepareRow} {placement : PlacementId}
    {command : CommandId} {allocations : List AllocationId} {now : Millis}
    {e : AgentCommandEnvelope}
    (h : sealedPrepare S T row placement command allocations now = .ok e) :
    ∃ u, buildPrepareEnvelope row placement command allocations now (now + prepareDeadlineMillis)
      = .ok u ∧ u.sealHash (envelopeHash S T) = .ok e := by
  obtain ⟨u, hbuild, h⟩ := bind_eq_ok h
  refine ⟨u, hbuild, ?_⟩
  split at h
  · cases h
  · next hseal =>
    cases h
    exact hseal

theorem issuedEnvelope_ok {S : Sha256} {T : TimeText} {s : Store} {placement : PlacementId}
    {operation : AgentOperation} {key : String} {ttl : Millis} {command : CommandId}
    {now : Millis} {e : AgentCommandEnvelope}
    (h : s.issuedEnvelope S T placement operation key ttl command now = .ok (some e)) :
    ∃ p host session incarnation u, s.placements.find placement = some p ∧
      s.issuingHost p now = some (host, session, incarnation) ∧
      buildPlacementEnvelope p host session incarnation command operation key ttl now = .ok u ∧
      u.sealHash (envelopeHash S T) = .ok e := by
  unfold Store.issuedEnvelope at h
  split at h
  · cases h
  · next p hp =>
    split at h
    · cases h
    · next host session incarnation hhost =>
      obtain ⟨u, hbuild, h⟩ := bind_eq_ok h
      refine ⟨p, host, session, incarnation, u, hp, hhost, hbuild, ?_⟩
      split at h
      · cases h
      · next hseal =>
        cases h
        exact hseal

/-! ## The builders and the store

The model of admission and of `issue_command` on the store seals the same envelopes.
-/

/-- The candidate of the store's model that a row and its prepare operation stand for. -/
def Builder.PrepareRow.candidate (row : PrepareRow) (domain : DomainId)
    (prepare : PrepareEnvironment) : Candidate where
  hostId := row.hostId
  backendId := row.backendId
  domainId := domain
  hostEpoch := row.hostEpoch.toNat
  authoritySessionId := row.authoritySessionId
  incarnation := row.controlPlaneIncarnation
  profileRevision := row.profileRevision.toNat
  request := prepare.resourceRequest
  prepare := prepare
  refusal := none

theorem prepareEnvelope_of_sealedPrepare {S : Sha256} {T : TimeText} {H : Hashing}
    (hH : H.envelope = envelopeHash S T) {row : PrepareRow} {placement : PlacementId}
    {command : CommandId} {allocations : List AllocationId} {now : Millis}
    {e : AgentCommandEnvelope} (hplacement : uuid.Valid placement)
    (h : sealedPrepare S T row placement command allocations now = .ok e) (domain : DomainId) :
    ∃ prepare, let c := row.candidate domain prepare
      Store.prepareEnvelope H (Store.placementFor ⟨row.intentId, row.generation.toNat⟩ c placement
        now) c allocations command now = .ok e := by
  obtain ⟨u, hbuild, hseal⟩ := sealedPrepare_ok h
  obtain ⟨-, prepare, rfl, hrevision, hallocations⟩ := buildPrepareEnvelope_ok T hplacement hbuild
  refine ⟨prepare, ?_⟩
  have hkey := IdempotencyKey.ofText_prepare hplacement.2
  have hsame : { prepare with
      profileRevision := row.profileRevision.toNat, allocationIds := allocations } = prepare := by
    rw [← hrevision, ← hallocations]
  simp only [PrepareRow.envelope, hkey] at hseal
  simp [Store.prepareEnvelope, Store.placementFor, PrepareRow.candidate, hsame, hH, hseal]

theorem issueCommand_of_issuedEnvelope {S : Sha256} {T : TimeText} {H : Hashing}
    (hH : H.envelope = envelopeHash S T) {s : Store} {placement : PlacementId}
    {operation : AgentOperation} {key : String} {ttl : Millis} {command : CommandId}
    {now : Millis} {e : AgentCommandEnvelope} (hplacement : uuid.Valid placement)
    (hoperation : (agentOperation T).Valid operation)
    (h : s.issuedEnvelope S T placement operation key ttl command now = .ok (some e)) :
    ∃ p, s.placements.find placement = some p ∧
      s.issueCommand H placement operation (.ofText key) ttl command now
        = s.insertCommand (commandRow p e now) := by
  obtain ⟨p, host, session, incarnation, u, hp, hhost, hbuild, hseal⟩ := issuedEnvelope_ok h
  have hid : uuid.Valid p.id := Table.key_of_find hp ▸ hplacement
  obtain ⟨-, rfl⟩ := buildPlacementEnvelope_ok T hid hoperation hbuild
  refine ⟨p, hp, ?_⟩
  simp [Store.issueCommand, hp, hhost, hH, hseal]

/-! ## What the agent makes of a command -/

/-- A sealed command: in shape, with its own hash, dated back by the clock skew. -/
structure Sealed (S : Sha256) (T : TimeText) (now : Millis) (e : AgentCommandEnvelope) : Prop where
  valid : (agentCommandEnvelope T).Valid e
  shape : e.checkShape = .ok ()
  hash : e.requestHash = e.canonicalHash (envelopeHash S T)
  issued : e.issuedAt = now - commandClockSkewMillis

theorem valid_withHash {T : TimeText} {e : AgentCommandEnvelope} (hash : String)
    (h : (agentCommandEnvelope T).Valid e) :
    (agentCommandEnvelope T).Valid { e with requestHash := hash } := by
  obtain ⟨hversion, hcommand, hoperation, hkey, hhost, hepoch, hincarnation, hsession, hscope,
    hrevision, hissued, hdeadline, -, hwork⟩ := h
  exact ⟨hversion, hcommand, hoperation, hkey, hhost, hepoch, hincarnation, hsession, hscope,
    hrevision, hissued, hdeadline, rfl, hwork⟩

theorem Sealed.of_sealHash {S : Sha256} {T : TimeText} {now : Millis}
    {u e : AgentCommandEnvelope} (hvalid : (agentCommandEnvelope T).Valid u)
    (hissued : u.issuedAt = now - commandClockSkewMillis)
    (h : u.sealHash (envelopeHash S T) = .ok e) : Sealed S T now e := by
  obtain ⟨hshape, rfl⟩ := sealHash_cases h
  exact ⟨valid_withHash _ hvalid, hshape, rfl, hissued⟩

theorem Built.sealed {S : Sha256} {T : TimeText} {now : Millis} {e : AgentCommandEnvelope}
    (h : Built S T now e) : Sealed S T now e := by
  cases h with
  | prepare hplacement hsealed =>
    obtain ⟨u, hbuild, hseal⟩ := sealedPrepare_ok hsealed
    obtain ⟨hvalid, prepare, rfl, -⟩ := buildPrepareEnvelope_ok T hplacement hbuild
    exact .of_sealHash hvalid rfl hseal
  | issue hplacement hoperation hsealed =>
    obtain ⟨p, host, session, incarnation, u, hp, -, hbuild, hseal⟩ := issuedEnvelope_ok hsealed
    have hid : uuid.Valid p.id := Table.key_of_find hp ▸ hplacement
    obtain ⟨hvalid, rfl⟩ := buildPlacementEnvelope_ok T hid hoperation hbuild
    exact .of_sealHash hvalid rfl hseal

def AgentCommandEnvelope.Names (e : AgentCommandEnvelope) (session : ExpectedAgentSession) : Prop :=
  e.hostId = session.hostId ∧ e.hostEpoch = session.hostEpoch ∧
    e.controlPlaneIncarnation = session.controlPlaneIncarnation ∧
    e.authoritySessionId = session.authoritySessionId

def AgentCommandEnvelope.isStartRunner (e : AgentCommandEnvelope) : Bool :=
  e.operation.databaseKind == .startRunner

namespace Sealed

variable {S : Sha256} {T : TimeText} {now : Millis} {e : AgentCommandEnvelope}

theorem cost_le (h : Sealed S T now e) : (agentCommandEnvelope T).cost e ≤ defaultJsonBytes := by
  refine cost_agentCommandEnvelope_le T h.shape ?_
  rw [h.hash]
  exact Nat.le_of_eq (utf8ByteSize_envelopeHash S T _)

theorem validateBinding_ok (h : Sealed S T now e) {session : ExpectedAgentSession}
    (hnames : e.Names session) : e.validateBinding (envelopeHash S T) session = .ok () := by
  obtain ⟨hhost, hepoch, hincarnation, hsession⟩ := hnames
  unfold AgentCommandEnvelope.validateBinding
  rw [h.shape]
  simp [bind, Except.bind, hhost, hepoch, hincarnation, hsession, ← h.hash]

theorem issuedAt_le (h : Sealed S T now e) {control reading : Millis} (hcontrol : now ≤ control)
    (hreading : |reading - control| ≤ commandClockSkewMillis) : e.issuedAt ≤ reading := by
  have hlate := neg_le_sub_iff_le_add.mp (abs_le.mp hreading).1
  rw [h.issued]
  exact sub_le_iff_le_add.mpr (hcontrol.trans hlate)

theorem validateAgainst_iff (h : Sealed S T now e) {session : ExpectedAgentSession}
    (hnames : e.Names session) {reading : Millis} (hissued : e.issuedAt ≤ reading)
    (hdeadline : reading < e.deadlineAt) (hauthority : reading < session.authorityExpiresAt) :
    e.validateAgainst (envelopeHash S T) session reading = .ok () ↔
      (e.isStartRunner = true → e.deadlineAt ≤ session.authorityExpiresAt) := by
  unfold AgentCommandEnvelope.validateAgainst AgentCommandEnvelope.isStartRunner
  rw [h.validateBinding_ok hnames]
  have hnow : ¬ (reading < e.issuedAt ∨ reading ≥ e.deadlineAt ∨
      reading ≥ session.authorityExpiresAt) :=
    not_or.mpr ⟨not_lt.mpr hissued, not_or.mpr ⟨not_le.mpr hdeadline, not_le.mpr hauthority⟩⟩
  simp only [bind, Except.bind, if_neg hnow]
  cases e.operation <;> simp [AgentOperation.databaseKind]

theorem validateBinding_changed (h : Sealed S T now e)
    (hfree : S.NoCollision (serialize (agentCommandEnvelope T) { e with requestHash := "" }))
    {e' : AgentCommandEnvelope} (hvalid : (agentCommandEnvelope T).Valid e') (hne : e' ≠ e)
    (hhash : e'.requestHash = e.requestHash) (session : ExpectedAgentSession) :
    ∃ error, e'.validateBinding (envelopeHash S T) session = .error error := by
  cases hbinding : e'.validateBinding (envelopeHash S T) session with
  | error error => exact ⟨error, rfl⟩
  | ok _ =>
    have hown := (AgentCommandEnvelope.validateBinding_ok _ hbinding).2.2
    rw [hhash, h.hash] at hown
    have hcleared := envelopeHash_inj hfree (valid_withHash "" h.valid) (valid_withHash "" hvalid)
      hown.symm
    have hsame : e' = e :=
      calc e' = { { e' with requestHash := "" } with requestHash := e'.requestHash } := rfl
        _ = { { e with requestHash := "" } with requestHash := e.requestHash } := by
          rw [hcleared, hhash]
    exact absurd hsame hne

end Sealed

/-- **The agent accepts the commands the control plane builds**, a start only if it also ends before
the authority does, and no altered one. -/
theorem built_command_accepted {S : Sha256} {T : TimeText} {now : Millis}
    {e : AgentCommandEnvelope} (h : Built S T now e) :
    parseJson (agentCommandEnvelope T) (serialize (agentCommandEnvelope T) e) defaultJsonBytes
      = .ok e ∧
    (forward (serialize (agentCommandEnvelope T) e)).map
      (parseJson (agentCommandEnvelope T) · defaultJsonBytes) = some (.ok e) ∧
    e.checkShape = .ok () ∧
    (∀ session, e.Names session →
      e.validateBinding (envelopeHash S T) session = .ok () ∧
      ∀ control reading, now ≤ control → control ≤ e.deadlineAt →
        |reading - control| ≤ commandClockSkewMillis →
        reading < e.deadlineAt → reading < session.authorityExpiresAt →
        (e.validateAgainst (envelopeHash S T) session reading = .ok () ↔
          (e.isStartRunner = true → e.deadlineAt ≤ session.authorityExpiresAt))) ∧
    (S.NoCollision (serialize (agentCommandEnvelope T) { e with requestHash := "" }) →
      ∀ body e', parseJson (agentCommandEnvelope T) body defaultJsonBytes = .ok e' → e' ≠ e →
        e'.requestHash = e.requestHash → ∀ session,
          ∃ error, e'.validateBinding (envelopeHash S T) session = .error error) := by
  have hsealed := h.sealed
  have hlimit : 0 < defaultJsonBytes ∧ defaultJsonBytes ≤ maxJsonBytes := by decide
  refine ⟨parseJson_serialize _ hsealed.valid hsealed.cost_le hlimit,
    parseJson_forward _ hsealed.valid hsealed.cost_le hlimit, hsealed.shape, ?_, ?_⟩
  · intro session hnames
    refine ⟨hsealed.validateBinding_ok hnames, ?_⟩
    intro control reading hcontrol _ hreading hdeadline hauthority
    exact hsealed.validateAgainst_iff hnames (hsealed.issuedAt_le hcontrol hreading) hdeadline
      hauthority
  · intro hfree body e' hparse hne hhash session
    exact hsealed.validateBinding_changed hfree (valid_of_parseJson _ hparse) hne hhash session

/-! ## A sample -/

namespace Sample

def format (t : Millis) : String := String.ofList (printInt t)

def parse (s : String) : Option Millis :=
  match parseNumber s.toList with
  | some (.num n, []) => if WireTimestamp.Carries n then some n else none
  | _ => none

theorem parse_format : ∀ {t}, WireTimestamp.Carries t → parse (format t) = some t := by
  intro t h
  have hends : Ends [] := rfl
  have hnumber := parseNumber_print t hends
  rw [List.append_nil] at hnumber
  rw [parse, format, String.toList_ofList, hnumber]
  exact if_pos h

theorem carries_of_parse : ∀ {s t}, parse s = some t → WireTimestamp.Carries t := by
  intro s t h
  rw [parse] at h
  split at h
  · obtain ⟨hcarries, ht⟩ := Option.ite_none_right_eq_some.mp h
    exact Option.some.inj ht ▸ hcarries
  · cases h

theorem format_size : ∀ {t}, WireTimestamp.Carries t → (format t).utf8ByteSize ≤ 32 := by
  intro t h
  have hbound : ∀ n : Int, -62167219200000 ≤ n ∧ n ≤ 253402300799999 → n.natAbs < 10 ^ 20 := by
    intro n hn
    omega
  have hdigits : (Nat.toDigits 10 t.natAbs).length ≤ 20 :=
    (Nat.length_toDigits_le_iff (by decide) (by decide)).mpr (hbound t h)
  rw [format, utf8ByteSize_ofList, utf8Length_printInt, printInt]
  split
  · rw [List.length_cons]
    omega
  · omega

def timeText : TimeText := ⟨format, parse, @parse_format, @carries_of_parse, @format_size⟩

def authorized : Store :=
  { store with hosts := ⟨[{ host with authorityExpiresAt := some 30000 }], by decide⟩ }

def issued (operation : AgentOperation) : AgentCommandEnvelope :=
  placementEnvelope placement { host with authorityExpiresAt := some 30000 } 10 7 2 operation
    (.ofText "sample") 50000 1000

def sha256 : Sha256 where
  digest text := List.replicate 32
    (if text = serialize (agentCommandEnvelope timeText) (issued (.inspect runner)) then 1 else 0)
  length_digest _ := List.length_replicate

theorem noCollision :
    sha256.NoCollision (serialize (agentCommandEnvelope timeText) (issued (.inspect runner))) := by
  intro other h
  by_contra hne
  simp only [sha256, if_neg hne] at h
  exact absurd h (by decide)

def sealed (e : AgentCommandEnvelope) : AgentCommandEnvelope :=
  { e with requestHash := e.canonicalHash (envelopeHash sha256 timeText) }

def boundSession : ExpectedAgentSession := ⟨1, 1, 7, 10, 30000⟩

theorem start_valid : (agentOperation timeText).Valid start := by
  have hid : uuid.Valid 1 := ⟨by decide, by decide⟩
  have hcounter : counter.Valid 1 := ⟨by decide, by decide⟩
  have hexpires : WireTimestamp.Carries 600000 := by decide
  have hrequest : resourceRequest.Valid request := by
    show (1 ≤ 1000 ∧ 1000 ≤ maxCpuMillis) ∧ (1 ≤ 1024 ∧ 1024 ≤ maxMemoryMib) ∧
      (0 ≤ 0 ∧ 0 ≤ maxDiskBytes)
    decide
  have hallocations : ∀ n ∈ [1], uuid.Valid n := fun n hn => List.mem_singleton.mp hn ▸ hid
  exact ⟨hid, hid, hcounter, hid, hexpires, hrequest, hallocations⟩

theorem inspect_valid : (agentOperation timeText).Valid (.inspect runner) := by
  show upstreamTextOk "runner" = true
  decide

theorem built_start : Built sha256 timeText 1000 (sealed (issued start)) := by
  have hsealed : authorized.issuedEnvelope sha256 timeText 1 start "sample" 50000 2 1000
      = .ok (some (sealed (issued start))) := rfl
  exact .issue ⟨by decide, by decide⟩ start_valid hsealed

theorem built_inspect : Built sha256 timeText 1000 (sealed (issued (.inspect runner))) := by
  have hsealed : authorized.issuedEnvelope sha256 timeText 1 (.inspect runner) "sample" 50000 2 1000
      = .ok (some (sealed (issued (.inspect runner)))) := rfl
  exact .issue ⟨by decide, by decide⟩ inspect_valid hsealed

theorem otherEpoch_valid : (agentCommandEnvelope timeText).Valid
    { sealed (issued (.inspect runner)) with hostEpoch := 2 } := by
  obtain ⟨hversion, hcommand, hoperation, hkey, hhost, -, hrest⟩ := built_inspect.sealed.valid
  exact ⟨hversion, hcommand, hoperation, hkey, hhost, ⟨by decide, by decide⟩, hrest⟩

theorem otherEpoch_cost : (agentCommandEnvelope timeText).cost
    { sealed (issued (.inspect runner)) with hostEpoch := 2 } ≤ defaultJsonBytes :=
  cost_agentCommandEnvelope_le _ rfl (Nat.le_of_eq (utf8ByteSize_envelopeHash ..))

end Sample

open Sample in
theorem built_inspect_accepted :
    ∃ e session, Built sha256 timeText 1000 e ∧ e.Names session ∧
      parseJson (agentCommandEnvelope timeText) (serialize (agentCommandEnvelope timeText) e)
        defaultJsonBytes = .ok e ∧
      e.validateAgainst (envelopeHash sha256 timeText) session 6000 = .ok () ∧
      ∃ error, { e with hostEpoch := 2 }.validateBinding (envelopeHash sha256 timeText)
        { session with hostEpoch := 2 } = .error error := by
  have hnames : (sealed (issued (.inspect runner))).Names boundSession := ⟨rfl, rfl, rfl, rfl⟩
  have haccepted := built_command_accepted built_inspect
  refine ⟨_, _, built_inspect, hnames, haccepted.1, ?_, ?_⟩
  · exact ((haccepted.2.2.2.1 boundSession hnames).2 1000 6000 (by decide) (by decide)
      (by decide) (by decide) (by decide)).mpr fun h => nomatch h
  · have hchanged : parseJson _ _ defaultJsonBytes = .ok _ :=
      parseJson_serialize _ otherEpoch_valid otherEpoch_cost (by decide)
    have hne : { sealed (issued (.inspect runner)) with hostEpoch := 2 }
        ≠ sealed (issued (.inspect runner)) := fun h => nomatch congrArg (·.hostEpoch) h
    exact haccepted.2.2.2.2 noCollision _ _ hchanged hne rfl _

open Sample in
/-- The agent refuses a start whose deadline is after the authority, at the time it was built at. -/
theorem start_beyond_authority_refused :
    ∃ e session, Built sha256 timeText 1000 e ∧ e.Names session ∧
      1000 < e.deadlineAt ∧ 1000 < session.authorityExpiresAt ∧
      e.validateAgainst (envelopeHash sha256 timeText) session 1000 ≠ .ok () := by
  have hnames : (sealed (issued start)).Names boundSession := ⟨rfl, rfl, rfl, rfl⟩
  refine ⟨_, _, built_start, hnames, by decide, by decide, fun hok => ?_⟩
  have hends := (built_start.sealed.validateAgainst_iff hnames (by decide) (by decide)
    (by decide)).mp hok rfl
  exact absurd hends (by decide)

end Gridops.Fleet
