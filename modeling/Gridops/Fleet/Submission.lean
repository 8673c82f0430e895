import Gridops.Lib.Index
import Gridops.Fleet.Admission

/-!
# Submitting work

The front of the fleet (`fleet/service.rs`): `submit_intent` writes an operation and its workload
intent under a principal's idempotency key, `admit_operation` places a queued intent, and
`cancel_queued` gives up on one that was never placed. Each is one `BEGIN IMMEDIATE` transaction, so
concurrent calls are one after the other, and one that fails writes nothing.

What a call finds out about profiles, pools, targets and grants comes with it (`Checks`,
`AdmissionChecks`): none of it is written here. The placement itself is `Store.admitOperation`'s.
-/

namespace Gridops.Fleet.Submission

open Gridops.Lib

abbrev OperationId := IntentId
abbrev WorkloadId := Nat

inductive Error
  | database | invalidRequest (reason : String) | forbidden | notFound | idempotencyConflict
  | staleProfileRevision | invariant (reason : String) | queued (reason : String)
deriving DecidableEq

inductive WorkloadKind
  | ciRunner | fixSandbox
deriving DecidableEq

/-- `CanonicalRequest`: what the request's hash is taken of. -/
structure Body where
  poolId : String
  profileId : Nat
  targetId : Nat
  workloadId : WorkloadId
  generation : Nat
  kind : WorkloadKind
  agentRunId : Option String
  expectedProfileRevision : Option Nat
deriving DecidableEq

structure SubmitIntent where
  idempotencyKey : String
  body : Body
deriving DecidableEq

inductive Principal
  | user (userId : String) | reconciler | autoscaler | fixAgent
deriving DecidableEq

def Principal.isController : Principal → Bool
  | .user _ => false
  | .reconciler | .autoscaler | .fixAgent => true

structure PrincipalIdentity where
  kind : String
  scope : String
  userId : Option String
deriving DecidableEq

def PrincipalIdentity.fromPrincipal : Principal → Except Error PrincipalIdentity
  | .user userId =>
    if userId = "" then .error (.invalidRequest "user identity must not be empty")
    else .ok ⟨"user", "user:" ++ userId, some userId⟩
  | .reconciler => .ok ⟨"reconciler", "controller:reconciler", none⟩
  | .autoscaler => .ok ⟨"autoscaler", "controller:autoscaler", none⟩
  | .fixAgent => .ok ⟨"fix_agent", "controller:fix_agent", none⟩

def validKey (key : String) : Bool :=
  key != "" && key.utf8ByteSize ≤ 128 && key.toList.all fun c => 0x21 ≤ c.toNat && c.toNat ≤ 0x7e

def validateRequest (request : SubmitIntent) : Except Error Unit :=
  if !validKey request.idempotencyKey then .error (.invalidRequest "invalid idempotency key")
  else if request.body.poolId = "" then .error (.invalidRequest "pool ID must not be empty")
  else if request.body.generation ≠ 1 then
    .error (.invalidRequest "only initial workload generation is supported")
  else if request.body.expectedProfileRevision = some 0 then
    .error (.invalidRequest "profile revision must be positive")
  else
    match request.body.kind, request.body.agentRunId with
    | .ciRunner, none => .ok ()
    | .ciRunner, some _ => .error (.invalidRequest "CI runner intent cannot carry an agent run")
    | .fixSandbox, some run =>
      if run = "" then .error (.invalidRequest "fix sandbox requires an agent run") else .ok ()
    | .fixSandbox, none => .error (.invalidRequest "fix sandbox requires an agent run")

inductive OperationStatus
  | queued | running | succeeded | failed | cancelled | blocked
deriving DecidableEq

inductive IntentStatus
  | queued | admitted | cancelled | rejected
deriving DecidableEq

structure Operation (δ : Type) where
  id : OperationId
  principal : PrincipalIdentity
  idempotencyKey : String
  requestHash : δ
  status : OperationStatus
  reasonCode : Option String
deriving DecidableEq

/-- A row of `workload_intents`; the revision stands in the body's place for one. -/
structure WorkloadIntent where
  id : OperationId
  body : Body
  profileRevision : Nat
  status : IntentStatus
  reasonCode : Option String
deriving DecidableEq

/-- `UNIQUE (principal_scope,idempotency_key)`. -/
abbrev Operations (δ : Type) := Indexed (Operation.id (δ := δ)) (fun _ => true)
  fun o : Operation δ => (o.principal.scope, o.idempotencyKey)

/-- `UNIQUE (workload_id,generation)`. -/
abbrev WorkloadIntents := Indexed WorkloadIntent.id (fun _ => true)
  fun i : WorkloadIntent => (i.body.workloadId, i.body.generation)

structure State (δ : Type) where
  operations : Operations δ
  intents : WorkloadIntents
  fleet : Store

variable {δ : Type}

def State.setIntent (s : State δ) (q : WorkloadIntent → Bool) (status : IntentStatus → IntentStatus)
    (reason : Option String) : WorkloadIntents :=
  s.intents.update q (fun i => { i with status := status i.status, reasonCode := reason })
    (fun _ => rfl) fun _ _ _ => ⟨rfl, rfl⟩

def State.setOperation (s : State δ) (q : Operation δ → Bool)
    (status : OperationStatus → OperationStatus) (reason : Operation δ → Option String) :
    Operations δ :=
  s.operations.update q (fun o => { o with status := status o.status, reasonCode := reason o })
    (fun _ => rfl) fun _ _ _ => ⟨rfl, rfl⟩

theorem State.mem_setIntent {s : State δ} {q : WorkloadIntent → Bool}
    {status : IntentStatus → IntentStatus} {reason : Option String} {i' : WorkloadIntent} :
    i' ∈ s.setIntent q status reason ↔ ∃ i ∈ s.intents,
      (if q i then { i with status := status i.status, reasonCode := reason } else i) = i' :=
  List.mem_map

theorem State.mem_setOperation {s : State δ} {q : Operation δ → Bool}
    {status : OperationStatus → OperationStatus} {reason : Operation δ → Option String}
    {o' : Operation δ} : o' ∈ s.setOperation q status reason ↔ ∃ o ∈ s.operations,
      (if q o then { o with status := status o.status, reasonCode := reason o } else o) = o' :=
  List.mem_map

structure Checks where
  profileAndTarget : Except Error Unit
  targetIdentity : Except Error Unit
  poolAccess : Except Error Unit
  targetAccess : Except Error Unit
  workloadPolicy : Except Error Unit
  revision : Option Nat
  operationAccess : Except Error Unit

inductive SubmissionState
  | queued | replay
deriving DecidableEq

structure Submitted where
  operationId : OperationId
  workloadId : WorkloadId
  generation : Nat
  state : SubmissionState
deriving DecidableEq

namespace State

variable (s : State δ)

def operationByKey (scope key : String) : Option (Operation δ) :=
  s.operations.rows.find? fun o => o.principal.scope == scope && o.idempotencyKey == key

variable [DecidableEq δ] (hash : Body → δ)

def replay (existing : Operation δ) (request : SubmitIntent) (checks : Checks) :
    Except Error (Submitted × State δ) :=
  if existing.requestHash ≠ hash request.body then .error .idempotencyConflict
  else
    match s.intents.find existing.id with
    | none => .error .notFound
    | some _ =>
      -- The caller has to have access now, whoever submitted it.
      checks.operationAccess.map fun _ =>
        (⟨existing.id, request.body.workloadId, request.body.generation, .replay⟩, s)

def accept (identity : PrincipalIdentity) (request : SubmitIntent) (checks : Checks)
    (fresh : OperationId) : Except Error (Submitted × State δ) := do
  checks.profileAndTarget
  checks.targetIdentity
  checks.poolAccess
  checks.targetAccess
  checks.workloadPolicy
  if s.intents.rows.any fun i =>
      i.body.workloadId == request.body.workloadId && i.body.generation == request.body.generation
  then .error .idempotencyConflict
  else
    match s.operations.insert?
        ⟨fresh, identity, request.idempotencyKey, hash request.body, .queued, none⟩ with
    | none => .error .database
    | some operations =>
      match checks.revision with
      | none => .error (.invariant "profile disappeared during intent insert")
      | some revision =>
        match s.intents.insert? ⟨fresh, request.body, revision, .queued, none⟩ with
        | none => .error .database
        | some intents =>
          .ok (⟨fresh, request.body.workloadId, request.body.generation, .queued⟩,
            { s with operations, intents })

def submitIntent (principal : Principal) (request : SubmitIntent) (checks : Checks)
    (fresh : OperationId) : Except Error (Submitted × State δ) := do
  validateRequest request
  let identity ← PrincipalIdentity.fromPrincipal principal
  match s.operationByKey identity.scope request.idempotencyKey with
  | some existing => s.replay hash existing request checks
  | none => s.accept hash identity request checks fresh

end State

/-! ## Admission -/

structure AdmissionChecks where
  authorization : Except Error Unit
  ready : Bool
  poolRefusal : Option String
  candidates : List Candidate
  /-- `diagnose`, where there are no candidates. -/
  diagnosis : String

def isDurableCandidateError : Error → Bool
  | .forbidden | .notFound | .staleProfileRevision | .queued _ | .idempotencyConflict => true
  | .database | .invalidRequest _ | .invariant _ => false

def reasonCode : Error → String
  | .forbidden => "forbidden"
  | .notFound => "policy_unavailable"
  | .staleProfileRevision => "stale_profile_revision"
  | .queued reason => reason
  | .idempotencyConflict => "duplicate_workload"
  | .database | .invalidRequest _ | .invariant _ => "no_eligible_host"

def ofFleetError : FleetError → Error
  | .invalidRequest reason => .invalidRequest reason
  | .database => .database
  | .invariant reason => .invariant reason

inductive Outcome
  | admitted | queued | noop
deriving DecidableEq

namespace State

variable (s : State δ)

def persistRejection (id : OperationId) (reason : String) : State δ :=
  { s with
    intents := s.setIntent (fun i => i.id == id && i.status == .queued &&
      s.operations.rows.any fun o => o.id == id && o.status == .queued) (fun x => x) (some reason)
    operations := s.setOperation (fun o => o.id == id && o.status == .queued &&
      s.intents.rows.any fun i => i.id == id && i.status == .queued) (fun x => x)
      fun _ => some reason }

def markAdmitted (id : OperationId) (fleet : Store) : State δ where
  intents := s.setIntent (·.id == id) (fun _ => .admitted) none
  operations := s.setOperation (fun o => o.id == id && o.status == .queued) (fun _ => .running)
    fun _ => none
  fleet := fleet

def admitOperation (H : Hashing) (controller : Principal) (id : OperationId)
    (checks : AdmissionChecks) (fresh : Fresh) (now : Millis) : Except Error (Outcome × State δ) :=
  if !controller.isController then .error .forbidden
  else
    match s.intents.find id, s.operations.find id with
    | some intent, some operation =>
      if intent.status ≠ .queued ∨ operation.status ≠ .queued then .ok (.noop, s)
      else
        match checks.authorization with
        | .error e =>
          if isDurableCandidateError e then .ok (.queued, s.persistRejection id (reasonCode e))
          else .error e
        | .ok _ =>
          if !checks.ready then .ok (.queued, s.persistRejection id "control_plane_not_ready")
          else
            match checks.poolRefusal with
            | some reason => .ok (.queued, s.persistRejection id reason)
            | none =>
              match s.fleet.admitOperation H ⟨id, intent.body.generation⟩ fresh now none
                  checks.candidates with
              | .error e => .error (ofFleetError e)
              | .ok (.admitted, fleet) => .ok (.admitted, s.markAdmitted id fleet)
              | .ok (.queued reason, _) =>
                .ok (.queued, s.persistRejection id (reason.getD checks.diagnosis))
    | _, _ => .error .notFound

def cancelQueued (id : OperationId) (reason : String) : Bool × State δ :=
  let changes (i : WorkloadIntent) : Bool := i.id == id && i.status == .queued &&
    !(s.fleet.placements.rows.any fun p => p.intentId == i.id)
  if s.intents.rows.any changes then
    (true,
      { s with
        intents := s.setIntent changes (fun _ => .cancelled) (some reason)
        operations := s.setOperation (fun o => o.id == id && o.status == .queued)
          (fun _ => .cancelled) fun o => o.reasonCode })
  else (false, s)

end State

inductive Call
  | submit (principal : Principal) (request : SubmitIntent) (checks : Checks) (fresh : OperationId)
  | admission (controller : Principal) (id : OperationId) (checks : AdmissionChecks)
      (fresh : Fresh) (now : Millis)
  | cancel (id : OperationId) (reason : String)
  /-- The rest of the control plane works on its own tables. -/
  | elsewhere (fleet : Store)

def committed {α : Type} (s : State δ) : Except Error (α × State δ) → State δ
  | .ok (_, t) => t
  | .error _ => s

variable [DecidableEq δ]

def machine (hash : Body → δ) (H : Hashing) : Machine (State δ) Call where
  step s
    | .submit principal request checks fresh =>
      some (committed s (s.submitIntent hash principal request checks fresh))
    | .admission controller id checks fresh now =>
      some (committed s (s.admitOperation H controller id checks fresh now))
    | .cancel id reason => some (s.cancelQueued id reason).2
    | .elsewhere fleet => some { s with fleet }

def init (fleet : Store) : State δ := ⟨.empty, .empty, fleet⟩

/-! ## What a step does -/

def Advances (a b : IntentStatus) : Prop :=
  b = a ∨ a = .queued ∧ (b = .admitted ∨ b = .cancelled)

theorem Advances.trans {a b c : IntentStatus} (hab : Advances a b) (hbc : Advances b c) :
    Advances a c := by
  obtain rfl | ⟨ha, hb⟩ := hab
  · exact hbc
  · obtain rfl | ⟨rfl, -⟩ := hbc
    · exact .inr ⟨ha, hb⟩
    · obtain hb | hb := hb <;> cases hb

/-- The ways a step changes the two tables: not at all, by an accepted request, or by setting
states and reasons. -/
inductive Changes (hash : Body → δ) (s : State δ) : State δ → Prop
  | none (fleet : Store) : Changes hash s { s with fleet }
  | accepted {o : Operation δ} {i : WorkloadIntent} {operations : Operations δ}
      {intents : WorkloadIntents} (hid : i.id = o.id)
      (hvalid : validateRequest ⟨o.idempotencyKey, i.body⟩ = .ok ())
      (hhash : o.requestHash = hash i.body)
      (hoperations : s.operations.insert? o = some operations)
      (hintents : s.intents.insert? i = some intents) :
      Changes hash s { s with operations, intents }
  | set {q : WorkloadIntent → Bool} {f : IntentStatus → IntentStatus} {r : Option String}
      {q' : Operation δ → Bool} {f' : OperationStatus → OperationStatus}
      {r' : Operation δ → Option String} (fleet : Store)
      (hadvances : ∀ i ∈ s.intents, q i → Advances i.status (f i.status)) :
      Changes hash s ⟨s.setOperation q' f' r', s.setIntent q f r, fleet⟩

section

variable {hash : Body → δ} {H : Hashing} {s t u : State δ}

omit [DecidableEq δ] in
theorem Changes.persistRejection (id : OperationId) (reason : String) :
    Changes hash s (s.persistRejection id reason) :=
  .set s.fleet fun _ _ _ => .inl rfl

theorem State.replay_ok {existing : Operation δ} {request : SubmitIntent} {checks : Checks}
    {sub : Submitted} (h : s.replay hash existing request checks = .ok (sub, t)) :
    t = s ∧ sub.operationId = existing.id ∧ existing.requestHash = hash request.body := by
  obtain ⟨hhash, h⟩ := guard_eq_ok h
  split at h
  · cases h
  · cases hchecks : checks.operationAccess with
    | error e =>
      rw [hchecks] at h
      cases h
    | ok _ =>
      rw [hchecks] at h
      cases h
      exact ⟨rfl, rfl, not_not.mp hhash⟩

omit [DecidableEq δ] in
variable {request : SubmitIntent} {checks : Checks} {fresh : OperationId} {sub : Submitted}

theorem State.accept_ok {identity : PrincipalIdentity}
    (h : s.accept hash identity request checks fresh = .ok (sub, t)) :
    sub.operationId = fresh ∧ ∃ revision operations intents, t = { s with operations, intents } ∧
      s.operations.insert? ⟨fresh, identity, request.idempotencyKey, hash request.body, .queued,
        none⟩ = some operations ∧
      s.intents.insert? ⟨fresh, request.body, revision, .queued, none⟩ = some intents := by
  obtain ⟨_, -, h⟩ := bind_eq_ok h
  obtain ⟨_, -, h⟩ := bind_eq_ok h
  obtain ⟨_, -, h⟩ := bind_eq_ok h
  obtain ⟨_, -, h⟩ := bind_eq_ok h
  obtain ⟨_, -, h⟩ := bind_eq_ok h
  split at h
  · cases h
  split at h
  · cases h
  · next operations hoperations =>
    split at h
    · cases h
    · next revision _ =>
      split at h
      · cases h
      · next intents hintents =>
        cases h
        exact ⟨rfl, revision, operations, intents, rfl, hoperations, hintents⟩

theorem State.submitIntent_ok {principal : Principal}
    (h : s.submitIntent hash principal request checks fresh = .ok (sub, t)) :
    validateRequest request = .ok () ∧ ∃ identity,
      PrincipalIdentity.fromPrincipal principal = .ok identity ∧
      ((∃ existing, s.operationByKey identity.scope request.idempotencyKey = some existing ∧
          s.replay hash existing request checks = .ok (sub, t)) ∨
        s.accept hash identity request checks fresh = .ok (sub, t)) := by
  obtain ⟨_, hvalid, h⟩ := bind_eq_ok h
  obtain ⟨identity, hidentity, h⟩ := bind_eq_ok h
  refine ⟨hvalid, identity, hidentity, ?_⟩
  split at h
  · next existing hexisting => exact .inl ⟨existing, hexisting, h⟩
  · exact .inr h

theorem Changes.submit {principal : Principal}
    (h : s.submitIntent hash principal request checks fresh = .ok (sub, t)) :
    Changes hash s t := by
  obtain ⟨hvalid, identity, -, ⟨existing, -, hreplay⟩ | haccept⟩ := State.submitIntent_ok h
  · rw [(State.replay_ok hreplay).1]
    exact .none s.fleet
  · obtain ⟨-, revision, operations, intents, rfl, hoperations, hintents⟩ :=
      State.accept_ok haccept
    exact .accepted rfl hvalid rfl hoperations hintents

omit [DecidableEq δ] in
theorem Changes.admission {controller : Principal} {id : OperationId} {checks : AdmissionChecks}
    {fresh : Fresh} {now : Millis} {outcome : Outcome}
    (h : s.admitOperation H controller id checks fresh now = .ok (outcome, t)) :
    Changes hash s t := by
  unfold State.admitOperation at h
  split at h
  · cases h
  split at h
  swap
  · cases h
  next intent operation hintent _ =>
  split at h
  · cases h
    exact .none _
  next hqueued =>
  split at h
  · split at h
    · cases h
      exact .persistRejection _ _
    · cases h
  split at h
  · cases h
    exact .persistRejection _ _
  split at h
  · cases h
    exact .persistRejection _ _
  split at h
  · cases h
  · cases h
    -- The intent with this id is the one that was found queued.
    refine .set _ fun i hi hid => .inr ⟨?_, .inl rfl⟩
    have hsame : i = intent := Indexed.eq_of_key hi (Table.mem_of_find hintent)
      ((beq_iff_eq.mp hid).trans (Table.key_of_find hintent).symm)
    rw [hsame]
    exact not_not.mp (not_or.mp hqueued).1
  · cases h
    exact .persistRejection _ _

omit [DecidableEq δ] in
theorem Changes.cancel (id : OperationId) (reason : String) :
    Changes hash s (s.cancelQueued id reason).2 := by
  unfold State.cancelQueued
  dsimp only
  split
  · refine .set _ fun i _ hi => .inr ⟨?_, .inr rfl⟩
    rw [Bool.and_eq_true, Bool.and_eq_true] at hi
    exact beq_iff_eq.mp hi.1.2
  · exact .none _

theorem changes_of_step {call : Call} (h : (machine hash H).step s call = some t) :
    Changes hash s t := by
  cases call with
  | submit principal request checks fresh =>
    cases h
    cases hresult : s.submitIntent hash principal request checks fresh with
    | error e => exact .none _
    | ok result => exact .submit hresult
  | admission controller id checks fresh now =>
    cases h
    cases hresult : s.admitOperation H controller id checks fresh now with
    | error e => exact .none _
    | ok result => exact .admission hresult
  | cancel id reason =>
    cases h
    exact .cancel id reason
  | elsewhere fleet =>
    cases h
    exact .none _

/-! ## What runs keep -/

/-- Two rows of one operation: only its status and reason differ. -/
def Operation.Same (o o' : Operation δ) : Prop :=
  o'.id = o.id ∧ o'.principal = o.principal ∧ o'.idempotencyKey = o.idempotencyKey ∧
    o'.requestHash = o.requestHash

/-- Every operation and every intent is kept, and no intent but a queued one changes its state. -/
structure OneWay (s t : State δ) : Prop where
  operations : ∀ o ∈ s.operations, ∃ o' ∈ t.operations, o.Same o'
  intents : ∀ i ∈ s.intents, ∃ i' ∈ t.intents, i'.id = i.id ∧ i'.body = i.body ∧
    Advances i.status i'.status

omit [DecidableEq δ] in
theorem OneWay.refl (s : State δ) : OneWay s s where
  operations o ho := ⟨o, ho, rfl, rfl, rfl, rfl⟩
  intents i hi := ⟨i, hi, rfl, rfl, .inl rfl⟩

omit [DecidableEq δ] in
theorem OneWay.trans (hst : OneWay s t) (htu : OneWay t u) : OneWay s u where
  operations o ho := by
    obtain ⟨o', ho', hid, hprincipal, hkey, hhash⟩ := hst.operations o ho
    obtain ⟨o'', ho'', hid', hprincipal', hkey', hhash'⟩ := htu.operations o' ho'
    exact ⟨o'', ho'', hid'.trans hid, hprincipal'.trans hprincipal, hkey'.trans hkey,
      hhash'.trans hhash⟩
  intents i hi := by
    obtain ⟨i', hi', hid, hbody, hadvances⟩ := hst.intents i hi
    obtain ⟨i'', hi'', hid', hbody', hadvances'⟩ := htu.intents i' hi'
    exact ⟨i'', hi'', hid'.trans hid, hbody'.trans hbody, hadvances.trans hadvances'⟩

omit [DecidableEq δ] in
theorem Changes.oneWay (h : Changes hash s t) : OneWay s t := by
  cases h with
  | none fleet => exact ⟨(OneWay.refl s).operations, (OneWay.refl s).intents⟩
  | accepted hid hvalid hhash hoperations hintents =>
    refine ⟨fun o ho => ⟨o, (Indexed.mem_insert? hoperations).mpr (.inl ho), rfl, rfl, rfl, rfl⟩,
      fun i hi => ⟨i, (Indexed.mem_insert? hintents).mpr (.inl hi), rfl, rfl, .inl rfl⟩⟩
  | @set q f r q' f' r' fleet hadvances =>
    constructor
    · intro o ho
      refine ⟨_, State.mem_setOperation.mpr ⟨o, ho, rfl⟩, ?_⟩
      split <;> exact ⟨rfl, rfl, rfl, rfl⟩
    · intro i hi
      refine ⟨_, State.mem_setIntent.mpr ⟨i, hi, rfl⟩, ?_⟩
      by_cases hq : q i
      · rw [if_pos hq]
        exact ⟨rfl, rfl, hadvances i hi hq⟩
      · rw [if_neg hq]
        exact ⟨rfl, rfl, .inl rfl⟩

/-- Every operation has its intent, made from a valid request with its key and hash. -/
def Sound (hash : Body → δ) (s : State δ) : Prop :=
  ∀ o ∈ s.operations, ∃ i ∈ s.intents, i.id = o.id ∧
    validateRequest ⟨o.idempotencyKey, i.body⟩ = .ok () ∧ o.requestHash = hash i.body

omit [DecidableEq δ] in
theorem Changes.sound (h : Changes hash s t) (hs : Sound hash s) : Sound hash t := by
  have hkept : ∀ o ∈ s.operations, ∀ o', o.Same o' → ∃ i ∈ t.intents, i.id = o'.id ∧
      validateRequest ⟨o'.idempotencyKey, i.body⟩ = .ok () ∧ o'.requestHash = hash i.body := by
    rintro o ho o' ⟨hid, -, hkey, hhash⟩
    obtain ⟨i, hi, hiid, hvalid, hihash⟩ := hs o ho
    obtain ⟨i', hi', hid', hbody, -⟩ := h.oneWay.intents i hi
    rw [hid, hkey, hhash]
    exact ⟨i', hi', hid'.trans hiid, hbody.symm ▸ hvalid, hbody.symm ▸ hihash⟩
  intro o' ho'
  cases h with
  | none fleet => exact hs o' ho'
  | @accepted o i _ _ hid hvalid hhash hoperations hintents =>
    obtain ho' | rfl := (Indexed.mem_insert? hoperations).mp ho'
    · exact hkept o' ho' o' ⟨rfl, rfl, rfl, rfl⟩
    · exact ⟨i, (Indexed.mem_insert? hintents).mpr (.inr rfl), hid, hvalid, hhash⟩
  | set fleet hadvances =>
    obtain ⟨o, ho, rfl⟩ := State.mem_setOperation.mp ho'
    exact hkept o ho _ (by split <;> exact ⟨rfl, rfl, rfl, rfl⟩)

theorem sound_of_run {fleet : Store} {calls : List Call}
    (h : (machine hash H).Run (init fleet) calls s) : Sound hash s :=
  h.inv (fun _ _ _ _ hstep => (changes_of_step hstep).sound) fun _ ho =>
    (Indexed.not_mem_empty ho).elim

theorem oneWay_of_run {calls : List Call} (h : (machine hash H).Run s calls t) : OneWay s t :=
  h.rel (I := fun _ => True) OneWay.refl (fun _ _ _ => OneWay.trans) (fun _ _ _ _ _ _ => trivial)
    (fun _ _ _ _ hstep _ => (changes_of_step hstep).oneWay) trivial

/-! ## Repeated requests -/

omit [DecidableEq δ] in
theorem State.operationByKey_eq {o : Operation δ} (ho : o ∈ s.operations) :
    s.operationByKey o.principal.scope o.idempotencyKey = some o := by
  have hmem : o ∈ s.operations.rows := ho
  obtain ⟨o', hfind⟩ : ∃ o', s.operationByKey o.principal.scope o.idempotencyKey = some o' := by
    rw [← Option.isSome_iff_exists, operationByKey, List.find?_isSome]
    exact ⟨o, hmem, by simp⟩
  have hkey := List.find?_some hfind
  rw [Bool.and_eq_true, beq_iff_eq, beq_iff_eq] at hkey
  have hmem' : o' ∈ s.operations := List.mem_of_find?_eq_some hfind
  rw [hfind, Indexed.eq_of_index hmem' ho rfl rfl (Prod.ext hkey.1 hkey.2)]

/-- The principal's next calls under the operation's key: the same body is answered with it, another
valid one with a conflict. None writes. -/
structure Answers (hash : Body → δ) (s : State δ) (principal : Principal) (request : SubmitIntent)
    (id : OperationId) : Prop where
  repeated : ∀ checks fresh, s.submitIntent hash principal request checks fresh =
    checks.operationAccess.map fun _ =>
      (⟨id, request.body.workloadId, request.body.generation, .replay⟩, s)
  conflict : ∀ request' checks fresh, request'.idempotencyKey = request.idempotencyKey →
    request'.body ≠ request.body → validateRequest request' = .ok () →
    s.submitIntent hash principal request' checks fresh = .error .idempotencyConflict

theorem exists_operation {principal : Principal} {request : SubmitIntent} {checks : Checks}
    {fresh : OperationId} {sub : Submitted}
    (h : s.submitIntent hash principal request checks fresh = .ok (sub, t)) :
    ∃ identity, PrincipalIdentity.fromPrincipal principal = .ok identity ∧
      ∃ o ∈ t.operations, o.id = sub.operationId ∧ o.principal.scope = identity.scope ∧
        o.idempotencyKey = request.idempotencyKey ∧ o.requestHash = hash request.body := by
  obtain ⟨-, identity, hidentity, ⟨o, hfind, hreplay⟩ | haccept⟩ := State.submitIntent_ok h
  · obtain ⟨rfl, hid, hhash⟩ := State.replay_ok hreplay
    have hkey := List.find?_some hfind
    rw [Bool.and_eq_true, beq_iff_eq, beq_iff_eq] at hkey
    have ho : o ∈ t.operations := List.mem_of_find?_eq_some hfind
    exact ⟨identity, hidentity, o, ho, hid.symm, hkey.1, hkey.2, hhash⟩
  · obtain ⟨hid, -, operations, -, rfl, hoperations, -⟩ := State.accept_ok haccept
    exact ⟨identity, hidentity, _, (Indexed.mem_insert? hoperations).mpr (.inr rfl), hid.symm, rfl,
      rfl, rfl⟩

theorem answers_of_operation (hinj : Function.Injective hash) (hs : Sound hash s)
    {principal : Principal} {identity : PrincipalIdentity} {request : SubmitIntent}
    (hvalid : validateRequest request = .ok ())
    (hidentity : PrincipalIdentity.fromPrincipal principal = .ok identity) {o : Operation δ}
    (ho : o ∈ s.operations) (hscope : o.principal.scope = identity.scope)
    (hkey : o.idempotencyKey = request.idempotencyKey) (hhash : o.requestHash = hash request.body) :
    Answers hash s principal request o.id := by
  have hfind := State.operationByKey_eq ho
  rw [hscope, hkey] at hfind
  constructor
  · intro checks fresh
    obtain ⟨i, hi, hid, -⟩ := hs o ho
    have hintent : s.intents.find o.id = some i := Table.find_some_iff.mpr ⟨hi, hid⟩
    simp [State.submitIntent, hvalid, hidentity, bind, Except.bind, hfind, State.replay, hhash,
      hintent]
  · intro request' checks fresh hkey' hbody hvalid'
    have hne : o.requestHash ≠ hash request'.body := fun heq =>
      hbody (hinj (heq.symm.trans hhash))
    rw [← hkey'] at hfind
    simp [State.submitIntent, hvalid', hidentity, bind, Except.bind, hfind, State.replay, hne]

/-- **Submitting work is idempotent**, in every state of every run. -/
theorem submissions_idempotent (hash : Body → δ) (hinj : Function.Injective hash) (H : Hashing)
    (fleet : Store) (calls : List Call) (s : State δ)
    (hrun : (machine hash H).Run (init fleet) calls s) :
    (∀ o ∈ s.operations, ∀ o' ∈ s.operations, o.principal.scope = o'.principal.scope →
      o.idempotencyKey = o'.idempotencyKey → o = o') ∧
    (∀ i ∈ s.intents, ∀ i' ∈ s.intents, i.body.workloadId = i'.body.workloadId →
      i.body.generation = i'.body.generation → i = i') ∧
    (∀ principal request checks fresh sub t,
      s.submitIntent hash principal request checks fresh = .ok (sub, t) →
      ∀ later u, (machine hash H).Run t later u →
        Answers hash u principal request sub.operationId) ∧
    ∀ later u, (machine hash H).Run s later u → OneWay s u := by
  refine ⟨fun o ho o' ho' hscope hkey => ?_, fun i hi i' hi' hworkload hgeneration => ?_,
    fun principal request checks fresh sub t hsubmit later u hlater => ?_,
    fun later u => oneWay_of_run⟩
  · exact Indexed.eq_of_index ho ho' rfl rfl (Prod.ext hscope hkey)
  · exact Indexed.eq_of_index hi hi' rfl rfl (Prod.ext hworkload hgeneration)
  · obtain ⟨identity, hidentity, o, ho, hid, hscope, hkey, hhash⟩ := exists_operation hsubmit
    obtain ⟨o', ho', hid', hprincipal, hkey', hhash'⟩ := (oneWay_of_run hlater).operations o ho
    have hsound : Sound hash u :=
      hlater.inv (fun _ _ _ _ hstep => (changes_of_step hstep).sound)
        ((Changes.submit hsubmit).sound (sound_of_run hrun))
    rw [← hid, ← hid']
    exact answers_of_operation hinj hsound (State.submitIntent_ok hsubmit).1 hidentity ho'
      (hprincipal ▸ hscope) (hkey'.trans hkey) (hhash'.trans hhash)

end

namespace Sample

def work : SubmitIntent where
  idempotencyKey := "key-1"
  body :=
    { poolId := "pool"
      profileId := 1
      targetId := 1
      workloadId := 9
      generation := 1
      kind := .ciRunner
      agentRunId := none
      expectedProfileRevision := none }

def granted : Checks where
  profileAndTarget := .ok ()
  targetIdentity := .ok ()
  poolAccess := .ok ()
  targetAccess := .ok ()
  workloadPolicy := .ok ()
  revision := some 1
  operationAccess := .ok ()

def revoked : Checks := { granted with operationAccess := .error .forbidden }

def submitted : Except Error (Submitted × State Body) :=
  (init Store.empty).submitIntent id (.user "user-1") work granted 5

theorem exists_submitted : ∃ sub t, submitted = .ok (sub, t) := by
  have hok : submitted.isOk = true := by decide +kernel
  cases h : submitted with
  | error e =>
    rw [h] at hok
    cases hok
  | ok result => exact ⟨result.1, result.2, rfl⟩

end Sample

open Gridops.Fleet.Submission.Sample

theorem submission_repeated :
    ∃ sub t, (init Store.empty).submitIntent id (.user "user-1") work granted 5 = .ok (sub, t) ∧
      Answers id t (.user "user-1") work sub.operationId := by
  obtain ⟨sub, t, h⟩ := exists_submitted
  have hall := submissions_idempotent id Function.injective_id Fleet.Sample.hashing Store.empty []
    (init Store.empty) (.nil _)
  exact ⟨sub, t, h, hall.2.2.1 _ _ _ _ sub t h [] t (.nil t)⟩

theorem repetition_refused :
    ∃ sub t, (init Store.empty).submitIntent id (.user "user-1") work granted 5 = .ok (sub, t) ∧
      t.submitIntent id (.user "user-1") work revoked 6 = .error .forbidden := by
  have hrefused : (match submitted with
      | .error _ => false
      | .ok (_, t) => match t.submitIntent id (.user "user-1") work revoked 6 with
        | .error e => decide (e = .forbidden)
        | .ok _ => false) = true := by decide +kernel
  obtain ⟨sub, t, h⟩ := exists_submitted
  rw [h] at hrefused
  refine ⟨sub, t, h, ?_⟩
  cases hagain : t.submitIntent id (.user "user-1") work revoked 6 with
  | error e =>
    simp only [hagain, decide_eq_true_eq] at hrefused
    rw [hrefused]
  | ok _ =>
    simp only [hagain] at hrefused
    cases hrefused

end Gridops.Fleet.Submission
