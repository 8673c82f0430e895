import Gridops.Autoscaling.Agreement
import Gridops.Fleet.Submission
import Gridops.Lib.Turns

/-!
# Scheduling passes

`run_slice` of `fleet/admission.rs` scans the waiting intents, pools taking turns, and admits them
one after the other, each in a transaction of its own. The pass ends at the first admission that
fails: its transaction is rolled back, and the intents behind it are not looked at.
-/

namespace Gridops.Fleet.Submission

open Gridops.Lib

variable {δ : Type}

/-! ## Which intents are scanned -/

/-- What the scan reads beside intents and placements. -/
structure SliceReads where
  db : Autoscaling.Database
  repositoryOf : Nat → Option Ci.RepositoryId
  createdAt : OperationId → Millis
  now : Millis

def State.waiting (s : State δ) : List WorkloadIntent :=
  s.intents.rows.filter fun i =>
    i.status == .queued && !(s.fleet.placements.rows.any (·.intentId == i.id))

namespace SliceReads

variable (v : SliceReads)

/-- The intent's repository is flagged in its pool, or has a job that waits for too long. -/
def prioritised (i : WorkloadIntent) : Bool :=
  (v.repositoryOf i.body.targetId).any fun repository =>
    (v.db.priorityRepositories.find (i.body.poolId, repository)).isSome ||
      v.db.jobs.rows.any fun job =>
        job.status == .queued &&
          ((v.db.runs.find job.runId).any fun run =>
            run.repositoryId == repository &&
              ["requested", "queued", "pending", "waiting", "in_progress"].contains
                run.status.text) &&
          decide (job.createdAt ≤
            v.now - 60000 * ((v.db.priorities.find i.body.poolId).map (·.waitMinutes)).getD 10)

def turns : Turns WorkloadIntent String (ℕ ×ₗ Millis ×ₗ OperationId) (Millis ×ₗ OperationId) where
  group i := i.body.poolId
  key i := toLex (if v.prioritised i then 0 else 1, toLex (v.createdAt i.id, i.id))
  tie i := toLex (v.createdAt i.id, i.id)

def scan (s : State δ) (limit : ℕ) : List WorkloadIntent := v.turns.scan s.waiting limit

def line (s : State δ) (pool : String) : List WorkloadIntent := v.turns.line s.waiting pool

end SliceReads

theorem State.nodup_waiting (s : State δ) : s.waiting.Nodup :=
  (List.Nodup.of_map _ s.intents.unique).filter _

/-- **Pools take turns**, and a pool's prioritised intents come first. -/
theorem pools_take_turns (v : SliceReads) (s : State δ) (limit : ℕ) :
    (∀ p q, (∀ i ∈ s.waiting, i.body.poolId = q → i ∈ v.scan s limit) ∨
        ((v.scan s limit).filter (·.body.poolId == p)).length ≤
          ((v.scan s limit).filter (·.body.poolId == q)).length + 1) ∧
      (∀ p q k x y, (v.line s p)[k]? = some x → (v.line s q)[k + 1]? = some y →
        y ∈ v.scan s limit → [x, y].Sublist (v.scan s limit)) ∧
      ∀ x ∈ s.waiting, ∀ y ∈ v.scan s limit, x.body.poolId = y.body.poolId →
        v.prioritised x = true → v.prioritised y = false → [x, y].Sublist (v.scan s limit) := by
  refine ⟨fun p q => ?_, ?_, ?_⟩
  · by_cases hall : ∀ i ∈ s.waiting, i.body.poolId = q → i ∈ v.scan s limit
    · exact .inl hall
    · push Not at hall
      obtain ⟨i, hi, hpool, hnot⟩ := hall
      exact .inr (Turns.scanned_le_succ (T := v.turns) s.nodup_waiting hi hpool hnot)
  · intro p q k x y hx hy hscanned
    have hturnx := Turns.turn_of_line s.nodup_waiting hx
    have hturny := Turns.turn_of_line s.nodup_waiting hy
    have hmem := (Turns.mem_line.mp (List.mem_of_getElem? hx)).1
    exact Turns.scanned_before hmem (by omega) hscanned
  · intro x hx y hy hpool hfirst hsecond
    refine Turns.scanned_before hx (Turns.turn_lt hx (Turns.mem_of_mem_scan hy) hpool ?_) hy
    simp [SliceReads.turns, Prod.Lex.toLex_lt_toLex, hfirst, hsecond]

/-! ## Admitting them -/

/-- A row of `profile_host_selectors`. -/
inductive HostSelector
  | host (id : HostId) | tag (key value : String)
deriving DecidableEq

def HostSelector.isHost : HostSelector → Bool
  | .host _ => true
  | .tag .. => false

/-- What the admission of an intent reads when its turn comes. `rows` is what the candidate query
returns, with a session where the profile needs one. -/
structure AdmissionReads where
  authorization : Except Error Unit
  ready : Bool
  poolRefusal : Option String
  rows : List Candidate
  selectors : List HostSelector
  allAuthorizedHosts : Bool
  tagsJson : HostId → Option String
  diagnosis : String
  fresh : Fresh
  now : Millis

/-- `host_selector_matches`. What `serde_json` reads of a host's tags is a function from their
keys to the texts among their values. -/
def AdmissionReads.hostSelectorMatches (r : AdmissionReads)
    (parse : String → Option (String → Option String)) (host : HostId) : Except Error Bool :=
  if r.selectors.isEmpty then .ok r.allAuthorizedHosts
  else if r.selectors.any (·.isHost) && !r.selectors.contains (.host host) then .ok false
  else
    match r.tagsJson host with
    | none => .ok false
    | some text =>
      match parse text with
      | none => .error (.invariant "host tags are not valid JSON")
      | some tags => .ok (r.selectors.all fun selector =>
        match selector with
        | .host _ => true
        | .tag key value => tags key == some value)

structure SliceReport where
  scanned : Nat
  admitted : Nat
  queued : Nat
deriving DecidableEq

/-- A pass: the admissions it committed, the error that ended it, and what it left. -/
structure Pass (δ : Type) where
  handled : List (OperationId × Outcome)
  error : Option Error
  state : State δ

def Pass.report (p : Pass δ) (scanned : Nat) : Except Error SliceReport :=
  match p.error with
  | some e => .error e
  | none => .ok ⟨scanned, p.handled.countP (·.2 == .admitted), p.handled.countP (·.2 == .queued)⟩

def State.reachesCandidates (s : State δ) (controller : Principal) (id : OperationId)
    (r : AdmissionReads) : Bool :=
  controller.isController && (s.intents.find id).any (·.status == .queued) &&
    (s.operations.find id).any (·.status == .queued) && r.authorization.isOk && r.ready &&
    r.poolRefusal.isNone

structure Slicing (δ : Type) where
  hashing : Hashing
  controller : Principal
  parse : String → Option (String → Option String)
  reads : State δ → OperationId → AdmissionReads

namespace Slicing

variable (S : Slicing δ)

def admitOperation (s : State δ) (id : OperationId) : Except Error (Outcome × State δ) :=
  let r := S.reads s id
  let admission candidates := s.admitOperation S.hashing S.controller id
    ⟨r.authorization, r.ready, r.poolRefusal, candidates, r.diagnosis⟩ r.fresh r.now
  match r.rows.filterM fun c => r.hostSelectorMatches S.parse c.hostId with
  | .ok candidates => admission candidates
  | .error e => if s.reachesCandidates S.controller id r then .error e else admission []

def admitAll : List OperationId → State δ → Pass δ
  | [], s => ⟨[], none, s⟩
  | id :: ids, s =>
    match S.admitOperation s id with
    | .error e => ⟨[], some e, s⟩
    | .ok (outcome, t) =>
      let rest := admitAll ids t
      ⟨(id, outcome) :: rest.handled, rest.error, rest.state⟩

def scanned (v : SliceReads) (s : State δ) (limit : ℕ) : List OperationId :=
  (v.scan s limit).map (·.id)

def runSlice (v : SliceReads) (s : State δ) (limit : ℕ) : Pass δ :=
  if !S.controller.isController then ⟨[], some .forbidden, s⟩
  else S.admitAll (scanned v s limit) s

/-- The results of the admissions if each is tried, failed ones leaving the state as it is. -/
def ownResults : List OperationId → State δ → List (OperationId × Except Error Outcome)
  | [], _ => []
  | id :: ids, s =>
    match S.admitOperation s id with
    | .error e => (id, .error e) :: ownResults ids s
    | .ok (outcome, t) => (id, .ok outcome) :: ownResults ids t

end Slicing

def State.recorded (s : State δ) (id : OperationId) : Bool :=
  (s.intents.find id).any fun i => i.status == .admitted || i.reasonCode.isSome

def settles : Except Error Outcome → Bool
  | .ok .admitted | .ok .queued => true
  | .ok .noop | .error _ => false

/-! ## What a pass leaves -/

section Rows

variable {s t : State δ} {id k : OperationId}

theorem State.find_setIntent {q : WorkloadIntent → Bool} {status : IntentStatus → IntentStatus}
    {reason : Option String} :
    (s.setIntent q status reason).find k = (s.intents.find k).map fun i =>
      if q i then { i with status := status i.status, reasonCode := reason } else i :=
  @Table.find_update _ _ _ _ s.intents.toTable k q
    (fun i => { i with status := status i.status, reasonCode := reason }) fun _ => rfl

theorem State.find_setIntent_other {q : WorkloadIntent → Bool}
    {status : IntentStatus → IntentStatus} {reason : Option String}
    (hq : ∀ i, q i → i.id = id) (hk : k ≠ id) :
    (s.setIntent q status reason).find k = s.intents.find k := by
  rw [State.find_setIntent]
  cases hfind : s.intents.find k with
  | none => rfl
  | some i =>
    have hnot : ¬q i := fun h => hk ((Table.key_of_find hfind).symm.trans (hq i h))
    rw [Option.map_some, if_neg hnot]

theorem State.persistRejection_recorded {i : WorkloadIntent} {o : Operation δ} (reason : String)
    (hi : s.intents.find id = some i) (ho : s.operations.find id = some o)
    (hqueued : i.status = .queued ∧ o.status = .queued) :
    (s.persistRejection id reason).recorded id ∧
      ∀ k ≠ id, (s.persistRejection id reason).intents.find k = s.intents.find k := by
  refine ⟨?_, fun k hk => State.find_setIntent_other (fun i h => ?_) hk⟩
  · have hoperation : (s.operations.rows.any fun o => o.id == id && o.status == .queued) = true :=
      List.any_eq_true.mpr ⟨o, Table.mem_of_find ho, by
        have hid : o.id = id := Table.key_of_find ho
        simp [hid, hqueued.2]⟩
    have hid : i.id = id := Table.key_of_find hi
    simp [State.recorded, State.persistRejection, State.find_setIntent, hi, hid, hqueued.1,
      hoperation]
  · simp only [Bool.and_eq_true, beq_iff_eq] at h
    exact h.1.1

theorem State.admitOperation_recorded {H : Hashing} {controller : Principal}
    {checks : AdmissionChecks} {fresh : Fresh} {now : Millis} {outcome : Outcome}
    (h : s.admitOperation H controller id checks fresh now = .ok (outcome, t)) :
    (settles (.ok outcome) → t.recorded id) ∧ ∀ k ≠ id, t.intents.find k = s.intents.find k := by
  unfold State.admitOperation at h
  split at h
  · cases h
  split at h
  swap
  · cases h
  next i o hi ho =>
  split at h
  · cases h
    exact ⟨fun h => absurd h (by decide), fun _ _ => rfl⟩
  next hqueued =>
  simp only [not_or, not_not] at hqueued
  have hrejected (reason : String) := State.persistRejection_recorded reason hi ho hqueued
  have hcases : (∃ reason, t = s.persistRejection id reason) ∨
      ∃ fleet, t = s.markAdmitted id fleet := by
    split at h
    · split at h
      · cases h
        exact .inl ⟨_, rfl⟩
      · cases h
    split at h
    · cases h
      exact .inl ⟨_, rfl⟩
    split at h
    · cases h
      exact .inl ⟨_, rfl⟩
    split at h
    · cases h
    · cases h
      exact .inr ⟨_, rfl⟩
    · cases h
      exact .inl ⟨_, rfl⟩
  obtain ⟨reason, rfl⟩ | ⟨fleet, rfl⟩ := hcases
  · exact ⟨fun _ => (hrejected reason).1, (hrejected reason).2⟩
  · refine ⟨fun _ => ?_, fun k hk =>
      State.find_setIntent_other (fun i h => beq_iff_eq.mp h) hk⟩
    have hid : i.id = id := Table.key_of_find hi
    simp [State.recorded, State.markAdmitted, State.find_setIntent, hi, hid]

end Rows

namespace Slicing

variable {S : Slicing δ} {s t : State δ} {id : OperationId} {ids : List OperationId}

theorem admitOperation_recorded {outcome : Outcome}
    (h : S.admitOperation s id = .ok (outcome, t)) :
    (settles (.ok outcome) → t.recorded id) ∧ ∀ k ≠ id, t.intents.find k = s.intents.find k := by
  unfold admitOperation at h
  dsimp only at h
  split at h
  · exact State.admitOperation_recorded h
  · split at h
    · cases h
    · exact State.admitOperation_recorded h

theorem find_admitAll {k : OperationId} (hk : k ∉ ids) :
    (S.admitAll ids s).state.intents.find k = s.intents.find k := by
  induction ids generalizing s with
  | nil => rfl
  | cons id ids ih =>
    rw [List.mem_cons, not_or] at hk
    unfold admitAll
    split
    · rfl
    · next outcome t h => exact (ih hk.2).trans ((admitOperation_recorded h).2 k hk.1)

theorem handled_recorded (hnodup : ids.Nodup) {outcome : Outcome}
    (h : (id, outcome) ∈ (S.admitAll ids s).handled) (hsettles : settles (.ok outcome)) :
    (S.admitAll ids s).state.recorded id := by
  induction ids generalizing s with
  | nil => cases h
  | cons first ids ih =>
    rw [List.nodup_cons] at hnodup
    unfold admitAll at h ⊢
    split at h
    · cases h
    next result t hfirst =>
    rcases List.mem_cons.mp h with heq | hrest
    · cases heq
      have hrow : (S.admitAll ids t).state.intents.find id = t.intents.find id :=
        find_admitAll hnodup.1
      simp only [State.recorded, hrow]
      exact (admitOperation_recorded hfirst).1 hsettles
    · exact ih hnodup.2 hrest

theorem mem_ownResults {p : OperationId × Except Error Outcome} (h : p ∈ S.ownResults ids s) :
    p.1 ∈ ids := by
  induction ids generalizing s with
  | nil => cases h
  | cons id ids ih =>
    unfold ownResults at h
    split at h <;> rcases List.mem_cons.mp h with rfl | hrest
    · exact List.mem_cons_self
    · exact List.mem_cons_of_mem _ (ih hrest)
    · exact List.mem_cons_self
    · exact List.mem_cons_of_mem _ (ih hrest)

theorem handles_iff (hnodup : ids.Nodup) :
    (∀ id outcome, (id, .ok outcome) ∈ S.ownResults ids s → settles (.ok outcome) →
        (id, outcome) ∈ (S.admitAll ids s).handled) ↔
      (S.ownResults ids s).Pairwise fun a b => a.2.isOk = false → settles b.2 = false := by
  induction ids generalizing s with
  | nil => simp [ownResults]
  | cons first ids ih =>
    rw [List.nodup_cons] at hnodup
    unfold ownResults admitAll
    split
    · rw [List.pairwise_cons, ← ih hnodup.2]
      constructor
      · intro hall
        have hnone : ∀ id outcome, (id, .ok outcome) ∈ S.ownResults ids s →
            ¬settles (.ok outcome) := fun id outcome hmem hsettles =>
          List.not_mem_nil (hall id outcome (List.mem_cons_of_mem _ hmem) hsettles)
        refine ⟨fun b hb _ => ?_, fun id outcome hmem hsettles =>
          absurd hsettles (hnone id outcome hmem)⟩
        obtain ⟨id, _ | outcome⟩ := b
        · rfl
        · exact Bool.eq_false_iff.mpr (hnone id outcome hb)
      · rintro ⟨hnone, -⟩ id outcome hmem hsettles
        rcases List.mem_cons.mp hmem with heq | hrest
        · cases heq
        · rw [hnone _ hrest rfl] at hsettles
          cases hsettles
    · rw [List.pairwise_cons, ← ih hnodup.2]
      constructor
      · refine fun hall => ⟨fun _ _ hfailed => (nomatch hfailed),
          fun id outcome hmem hsettles => ?_⟩
        rcases List.mem_cons.mp (hall id outcome (List.mem_cons_of_mem _ hmem) hsettles) with
          heq | hrest
        · cases heq
          exact absurd (mem_ownResults hmem) hnodup.1
        · exact hrest
      · rintro ⟨-, hall⟩ id result hmem hsettles
        rcases List.mem_cons.mp hmem with heq | hrest
        · cases heq
          exact List.mem_cons_self
        · exact List.mem_cons_of_mem _ (hall id result hrest hsettles)

theorem nodup_scanned (v : SliceReads) (s : State δ) (limit : ℕ) :
    (scanned v s limit).Nodup := by
  refine (Turns.nodup_scan s.nodup_waiting).map_on fun x hx y hy hid => ?_
  have hrow {i : WorkloadIntent} (hi : i ∈ v.scan s limit) : i ∈ s.intents :=
    List.mem_of_mem_filter (Turns.mem_of_mem_scan hi)
  exact Indexed.eq_of_key (hrow hx) (hrow hy) hid

/-- **When a bad intent blocks no other**: exactly if none that could be settled stands behind one.
-/
theorem slice_settles_all_iff (S : Slicing δ) (hcontroller : S.controller.isController)
    (v : SliceReads) (s : State δ) (limit : ℕ) :
    (∀ id outcome, (id, .ok outcome) ∈ S.ownResults (scanned v s limit) s →
        settles (.ok outcome) → (id, outcome) ∈ (S.runSlice v s limit).handled ∧
          (S.runSlice v s limit).state.recorded id) ↔
      (S.ownResults (scanned v s limit) s).Pairwise fun a b =>
        a.2.isOk = false → settles b.2 = false := by
  have hnodup := nodup_scanned v s limit
  have hpass : S.runSlice v s limit = S.admitAll (scanned v s limit) s := by
    simp [runSlice, hcontroller]
  rw [hpass, ← handles_iff hnodup]
  constructor
  · exact fun h id outcome hmem hsettles => (h id outcome hmem hsettles).1
  · intro h id outcome hmem hsettles
    have hhandled := h id outcome hmem hsettles
    exact ⟨hhandled, handled_recorded hnodup hhandled hsettles⟩

namespace Sample

def twoWaiting : State Unit where
  operations := ⟨⟨[⟨1, ⟨"reconciler", "controller:reconciler", none⟩, "key-1", (), .queued, none⟩,
    ⟨2, ⟨"reconciler", "controller:reconciler", none⟩, "key-2", (), .queued, none⟩], by decide⟩,
    by decide⟩
  intents := ⟨⟨[⟨1, Submission.Sample.work.body, 1, .queued, none⟩,
    ⟨2, { Submission.Sample.work.body with workloadId := 10 }, 1, .queued, none⟩], by decide⟩,
    by decide⟩
  fleet := Store.empty

/-- A host with tags that `json_valid` accepts and `serde_json` does not read; the other has no
candidates. -/
def badTags (bad : OperationId) : Slicing Unit where
  hashing := Fleet.Sample.hashing
  controller := .reconciler
  parse _ := none
  reads _ id :=
    { authorization := .ok ()
      ready := true
      poolRefusal := none
      rows := if id = bad then
        [⟨1, 1, 1, 1, 10, 7, 1, Fleet.Sample.request, Fleet.Sample.prepare, none⟩] else []
      selectors := [.tag "zone" "a"]
      allAuthorizedHosts := false
      tagsJson := fun _ => some "\x7b\"weight\":1e999\x7d"
      diagnosis := "no_eligible_host"
      fresh := ⟨1, 1, fun _ => 1⟩
      now := 0 }

def slice : SliceReads where
  db := Autoscaling.Sample.fleet
  repositoryOf _ := none
  createdAt id := id
  now := 0

end Sample

/-- The first intent's admission fails, and the second gets no reason. -/
theorem bad_intent_blocks_the_next :
    (Slicing.ownResults (Sample.badTags 1) (scanned Sample.slice Sample.twoWaiting 100)
        Sample.twoWaiting).map (fun r => (r.1, r.2.toOption)) = [(1, none), (2, some .queued)] ∧
      ((Sample.badTags 1).runSlice Sample.slice Sample.twoWaiting 100).handled = [] ∧
      ((Sample.badTags 1).runSlice Sample.slice Sample.twoWaiting 100).state.recorded 2
        = false := by
  decide +kernel

theorem slice_settles_all_iff_last :
    ((Sample.badTags 2).runSlice Sample.slice Sample.twoWaiting 100).state.recorded 1 = true := by
  have hall := (slice_settles_all_iff (Sample.badTags 2) rfl Sample.slice Sample.twoWaiting 100).mpr
    (by decide +kernel)
  have hmem : (1, some .queued) ∈ ((Sample.badTags 2).ownResults
      (scanned Sample.slice Sample.twoWaiting 100) Sample.twoWaiting).map
        fun r => (r.1, r.2.toOption) := by
    decide +kernel
  obtain ⟨⟨_, _ | outcome⟩, hown, heq⟩ := List.mem_map.mp hmem <;> cases heq
  exact (hall 1 .queued hown rfl).2

end Slicing

end Gridops.Fleet.Submission
