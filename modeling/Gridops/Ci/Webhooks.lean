import Gridops.Ci.Jobs

/-!
# Receiving webhooks

`receive` records a delivery under the id in its headers before it looks at the signature, and takes
any later request with a recorded id for a duplicate. So what it processes is, for each id, the
first request recorded under it, if that one is signed (`effective`). An unsigned request can use up
an id: signed deliveries are processed exactly once, and as if the unsigned requests had not been
made, exactly if every id of a signed delivery is first recorded by a signed one (`SignedFirst`).

The cryptography, the JSON parser and the handlers behind `process` are parameters (`Intake`); the
handlers act on all other tables at once (`ω`).
-/

namespace Gridops.Ci

open Gridops.Lib

/-! ## The request handler -/

abbrev DeliveryId := String

inductive DeliveryStatus
  | received
  | rejected
  | processed
  | failed
deriving DecidableEq

structure Delivery where
  id : DeliveryId
  event : String
  action : Option String
  hookId : Option Int
  installationId : Option Int
  repositoryId : Option Int
  signatureValid : Bool
  status : DeliveryStatus
  payload : String
  error : Option String
  receivedAt : Millis
  processedAt : Option Millis
deriving DecidableEq

/-- A JSON object: what `receive` reads of it, its text, and the object itself. -/
structure Payload (π : Type) where
  action : Option String
  hookId : Option Int
  installationId : Option Int
  repositoryId : Option Int
  text : String
  object : π

/-- What `receive` calls: bodies `β`, JSON objects `π`, all other tables `ω`. -/
structure Intake (β π ω : Type) where
  size : β → Nat
  /-- The body as JSON, if it is; inside, the object, if it is one. -/
  parse : β → Option (Option (Payload π))
  decodeHex : List Char → Option (List UInt8)
  /-- `Hmac::<Sha256>` of the body under the secret. -/
  verifyHmac : String → β → List UInt8 → Bool
  /-- The event's handler: the tables it leaves, and its error if it fails. -/
  process : String → Option String → π → Millis → ω → ω × Option String

/-- A request, with the webhook secret configured when it arrives (an error where the
lookup fails) and the clock. -/
structure Request (β : Type) where
  deliveryId : Option DeliveryId
  event : Option String
  signature : Option String
  body : β
  secret : Except Unit (Option String)
  now : Millis
  processedAt : Millis

structure Admitted (π : Type) where
  deliveryId : DeliveryId
  event : String
  signatureValid : Bool
  payload : Payload π
  now : Millis
  processedAt : Millis

/-- The database: the deliveries and everything else; `log` has the ids processed. -/
structure Inbox (ω : Type) where
  deliveries : Table Delivery.id
  world : ω
  log : List DeliveryId

inductive Reply
  | accepted
  | duplicate
  | processingFailed
deriving DecidableEq

def maxWebhookBytes : Nat := 25 * 1024 * 1024

namespace Intake

variable {β π ω : Type} (I : Intake β π ω)

def verifySignatureWithSecret (body : β) (signature secret : String) : Bool :=
  if "sha256=".toList.isPrefixOf signature.toList then
    match I.decodeHex (signature.toList.drop 7) with
    | some supplied => I.verifyHmac secret body supplied
    | none => false
  else false

def verifySignature (r : Request β) : Except ApiError Bool :=
  match r.secret, r.signature with
  | .error _, _ => .error .internal
  | .ok (some secret), some signature => .ok (I.verifySignatureWithSecret r.body signature secret)
  | .ok _, _ => .ok false

def requiredHeader (value : Option String) (name : String) : Except ApiError String :=
  match value with
  | some value => .ok value
  | none => .error (.badRequest ("Missing " ++ name ++ " header."))

def parseObject (body : β) : Except ApiError (Payload π) :=
  match I.parse body with
  | none => .error (.badRequest "Webhook payload is not valid JSON.")
  | some none => .error (.badRequest "Webhook payload must be a JSON object.")
  | some (some payload) => .ok payload

def accept (r : Request β) : Except ApiError (Admitted π) :=
  if I.size r.body > maxWebhookBytes then
    .error (.payloadTooLarge "Webhook payload exceeds 25 MB.")
  else do
    let deliveryId ← requiredHeader r.deliveryId "x-github-delivery"
    let event ← requiredHeader r.event "x-github-event"
    let signatureValid ← I.verifySignature r
    let payload ← I.parseObject r.body
    .ok { deliveryId, event, signatureValid, payload, now := r.now, processedAt := r.processedAt }

end Intake

def Admitted.delivery {π : Type} (a : Admitted π) : Delivery where
  id := a.deliveryId
  event := a.event
  action := a.payload.action
  hookId := a.payload.hookId
  installationId := a.payload.installationId
  repositoryId := a.payload.repositoryId
  signatureValid := a.signatureValid
  status := .received
  payload := a.payload.text
  error := none
  receivedAt := a.now
  processedAt := none

/-- `UPDATE webhook_deliveries SET status, error, processed_at WHERE id = ?`. -/
def closeDelivery (t : Table Delivery.id) (id : DeliveryId) (status : DeliveryStatus)
    (error : Option String) (processedAt : Option Millis) : Table Delivery.id :=
  t.update (fun d => d.id == id) (fun d => { d with status, error, processedAt }) fun _ => rfl

namespace Intake

variable {β π ω : Type} (I : Intake β π ω)

/-- `receive` from the insert on: the id is taken before the signature is looked at. -/
def handle (s : Inbox ω) (a : Admitted π) : Except ApiError Reply × Inbox ω :=
  match s.deliveries.insert? a.delivery with
  | none => (.ok .duplicate, s)
  | some deliveries =>
    if a.signatureValid then
      let close := closeDelivery deliveries a.deliveryId
      let log := s.log ++ [a.deliveryId]
      match I.process a.event a.payload.action a.payload.object a.now s.world with
      | (world, none) =>
        (.ok .accepted, { deliveries := close .processed none (some a.processedAt), world, log })
      | (world, some error) =>
        let message := String.ofList (error.toList.take 2000)
        (.ok .processingFailed,
          { deliveries := close .failed (some message) (some a.processedAt), world, log })
    else
      (.error .unauthorized, { s with
        deliveries := closeDelivery deliveries a.deliveryId .rejected
          (some "Invalid or unavailable webhook signature.") none })

def receive (s : Inbox ω) (r : Request β) : Except ApiError Reply × Inbox ω :=
  match I.accept r with
  | .error e => (.error e, s)
  | .ok a => I.handle s a

def receiveAll (s : Inbox ω) (rs : List (Request β)) : Inbox ω :=
  rs.foldl (fun s r => (I.receive s r).2) s

def isSigned (r : Request β) : Bool :=
  match I.verifySignature r with
  | .ok valid => valid
  | .error _ => false

end Intake

/-! ## What is processed -/

section Effective

variable {π : Type}

/-- The requests that are processed when the ids in `seen` are taken: signed, and first with their
id. -/
def effective (seen : List DeliveryId) : List (Admitted π) → List (Admitted π)
  | [] => []
  | a :: as =>
    if a.deliveryId ∈ seen then effective seen as
    else if a.signatureValid then a :: effective (seen ++ [a.deliveryId]) as
    else effective (seen ++ [a.deliveryId]) as

def firstWith (id : DeliveryId) (as : List (Admitted π)) : Option (Admitted π) :=
  as.find? fun a => a.deliveryId == id

/-- Every id of a signed delivery is first used by a signed one. -/
def SignedFirst (as : List (Admitted π)) : Prop :=
  ∀ a ∈ as, a.signatureValid → (firstWith a.deliveryId as).any (·.signatureValid)

variable {seen seen' : List DeliveryId} {as : List (Admitted π)} {id : DeliveryId}

theorem mem_effective :
    id ∈ (effective seen as).map (·.deliveryId) ↔
      id ∉ seen ∧ (firstWith id as).any (·.signatureValid) := by
  induction as generalizing seen with
  | nil => simp [effective, firstWith]
  | cons a as ih =>
    unfold effective firstWith
    rw [List.find?_cons]
    by_cases hid : a.deliveryId = id
    · split <;> [skip; split] <;> simp_all
    · have hother : id ∉ seen ++ [a.deliveryId] ↔ id ∉ seen := by
        simp [Ne.symm hid]
      rw [beq_false_of_ne hid]
      split
      · exact ih
      · split
        · rw [List.map_cons, List.mem_cons, ih, hother]
          exact or_iff_right (Ne.symm hid)
        · rw [ih, hother]
          rfl

theorem nodup_effective : ((effective seen as).map (·.deliveryId)).Nodup := by
  induction as generalizing seen with
  | nil => exact List.nodup_nil
  | cons a as ih =>
    unfold effective
    split
    · exact ih
    · split
      · refine List.nodup_cons.mpr ⟨fun hmem => ?_, ih⟩
        exact (mem_effective.mp hmem).1 (List.mem_append_right _ (List.mem_singleton_self _))
      · exact ih

/-- Every signed delivery is processed exactly once if and only if no id of one is first
used by an unsigned request. -/
theorem count_effective_iff :
    (∀ a ∈ as, a.signatureValid → ((effective [] as).map (·.deliveryId)).count a.deliveryId = 1) ↔
      SignedFirst as := by
  refine forall₂_congr fun a _ => imp_congr_right fun _ => ?_
  have hmem : a.deliveryId ∈ (effective [] as).map (·.deliveryId) ↔
      (firstWith a.deliveryId as).any (·.signatureValid) :=
    mem_effective.trans (and_iff_right List.not_mem_nil)
  rw [nodup_effective.count, ← hmem]
  simp

/-- The unsigned requests can be left out where they use up no id of a signed one that
is still to come. -/
theorem effective_filter
    (hsigned : ∀ a ∈ as, a.signatureValid → (a.deliveryId ∈ seen ↔ a.deliveryId ∈ seen') ∧
      (a.deliveryId ∉ seen → (firstWith a.deliveryId as).any (·.signatureValid))) :
    effective seen' (as.filter (·.signatureValid)) = effective seen as := by
  induction as generalizing seen seen' with
  | nil => rfl
  | cons a as ih =>
    have hlater : ∀ b ∈ as, b.signatureValid → b.deliveryId ≠ a.deliveryId →
        (b.deliveryId ∈ seen ↔ b.deliveryId ∈ seen') ∧
          (b.deliveryId ∉ seen → (firstWith b.deliveryId as).any (·.signatureValid)) := by
      intro b hb hvalid hne
      have hb' := hsigned b (List.mem_cons_of_mem _ hb) hvalid
      rwa [firstWith, List.find?_cons, beq_false_of_ne hne.symm] at hb'
    cases hvalid : a.signatureValid with
    | true =>
      have hseen := (hsigned a List.mem_cons_self hvalid).1
      rw [List.filter_cons_of_pos hvalid]
      unfold effective
      simp only [if_true, ← hseen]
      split
      · next htaken =>
        refine ih fun b hb hb' => ?_
        by_cases hne : b.deliveryId = a.deliveryId
        · rw [hne]
          exact ⟨hseen, fun hfree => absurd htaken hfree⟩
        · exact hlater b hb hb' hne
      · congr 1
        refine ih fun b hb hb' => ?_
        by_cases hne : b.deliveryId = a.deliveryId
        · simp [hne]
        · simpa [hne] using hlater b hb hb' hne
    | false =>
      -- an unsigned request takes its id; a signed one with it can only come where the id was
      -- taken before
      have htaken : ∀ b ∈ as, b.signatureValid → b.deliveryId = a.deliveryId →
          a.deliveryId ∈ seen ∧ a.deliveryId ∈ seen' := by
        intro b hb hb' heq
        have hsame := hsigned b (List.mem_cons_of_mem _ hb) hb'
        rw [heq, firstWith, List.find?_cons, beq_self_eq_true] at hsame
        by_cases hin : a.deliveryId ∈ seen
        · exact ⟨hin, hsame.1.mp hin⟩
        · simpa [hvalid] using hsame.2 hin
      have hskip : effective seen (a :: as) = if a.deliveryId ∈ seen then effective seen as
          else effective (seen ++ [a.deliveryId]) as := by
        rw [effective]
        simp only [hvalid, Bool.false_eq_true, if_false]
      rw [List.filter_cons_of_neg (by simp [hvalid]), hskip]
      split
      · refine ih fun b hb hb' => ?_
        by_cases hne : b.deliveryId = a.deliveryId
        · have hboth := htaken b hb hb' hne
          rw [hne]
          exact ⟨iff_of_true hboth.1 hboth.2, fun hfree => absurd hboth.1 hfree⟩
        · exact hlater b hb hb' hne
      · next hfree =>
        refine ih fun b hb hb' => ?_
        by_cases hne : b.deliveryId = a.deliveryId
        · exact absurd (htaken b hb hb' hne).1 hfree
        · simpa [hne] using hlater b hb hb' hne

end Effective

/-! ## What the requests leave behind -/

namespace Intake

variable {β π ω : Type} (I : Intake β π ω)

def admitted (rs : List (Request β)) : List (Admitted π) :=
  rs.filterMap fun r => (I.accept r).toOption

def act (world : ω) (a : Admitted π) : ω :=
  (I.process a.event a.payload.action a.payload.object a.now world).1

theorem signatureValid_of_accept {r : Request β} {a : Admitted π} (h : I.accept r = .ok a) :
    a.signatureValid = I.isSigned r := by
  obtain ⟨-, h⟩ := guard_eq_ok h
  obtain ⟨_, -, h⟩ := bind_eq_ok h
  obtain ⟨_, -, h⟩ := bind_eq_ok h
  obtain ⟨valid, hvalid, h⟩ := bind_eq_ok h
  obtain ⟨_, -, h⟩ := bind_eq_ok h
  cases h
  simp [isSigned, hvalid]

theorem admitted_filter (rs : List (Request β)) :
    I.admitted (rs.filter I.isSigned) = (I.admitted rs).filter (·.signatureValid) := by
  induction rs with
  | nil => rfl
  | cons r rs ih =>
    cases haccept : I.accept r with
    | error e =>
      cases hsigned : I.isSigned r <;>
        simpa [admitted, hsigned, haccept, Except.toOption] using ih
    | ok a =>
      have hvalid := I.signatureValid_of_accept haccept
      cases hsigned : I.isSigned r <;>
        simpa [admitted, hsigned, haccept, hvalid, Except.toOption] using ih

theorem receiveAll_eq (s : Inbox ω) (rs : List (Request β)) :
    I.receiveAll s rs = (I.admitted rs).foldl (fun s a => (I.handle s a).2) s := by
  induction rs generalizing s with
  | nil => rfl
  | cons r rs ih =>
    have hrest := ih (I.receive s r).2
    cases haccept : I.accept r with
    | error e => simpa [receiveAll, admitted, receive, haccept, Except.toOption] using hrest
    | ok a => simpa [receiveAll, admitted, receive, haccept, Except.toOption] using hrest

def ids (s : Inbox ω) : List DeliveryId := s.deliveries.rows.map (·.id)

theorem handle_taken {s : Inbox ω} {a : Admitted π} (h : a.deliveryId ∈ ids s) :
    (I.handle s a).2 = s := by
  obtain ⟨d, hd, hid⟩ := List.mem_map.mp h
  have hnone : s.deliveries.insert? a.delivery = none := Table.insert?_none.mpr ⟨d, hd, hid⟩
  simp [handle, hnone]

theorem handle_free {s : Inbox ω} {a : Admitted π} (h : a.deliveryId ∉ ids s) :
    let t := (I.handle s a).2
    ids t = ids s ++ [a.deliveryId] ∧
      t.world = (if a.signatureValid then I.act s.world a else s.world) ∧
      t.log = (if a.signatureValid then s.log ++ [a.deliveryId] else s.log) := by
  cases hinsert : s.deliveries.insert? a.delivery with
  | none =>
    obtain ⟨d, hd, hid⟩ := Table.insert?_none.mp hinsert
    exact absurd (List.mem_map.mpr ⟨d, hd, hid⟩) h
  | some deliveries =>
    have hids : ∀ status error processedAt, (closeDelivery deliveries a.deliveryId status error
        processedAt).rows.map (·.id) = ids s ++ [a.deliveryId] := by
      intro status error processedAt
      unfold closeDelivery
      rw [Table.map_key_update, (Table.insert?_some.mp hinsert).2, List.map_append]
      rfl
    simp only [handle, hinsert]
    cases a.signatureValid with
    | false => exact ⟨hids _ _ _, rfl, rfl⟩
    | true =>
      simp only [if_true, act]
      split
      · next hprocess => exact ⟨hids _ _ _, by rw [hprocess], rfl⟩
      · next hprocess => exact ⟨hids _ _ _, by rw [hprocess], rfl⟩

theorem foldl_handle (s : Inbox ω) (as : List (Admitted π)) :
    let t := as.foldl (fun s a => (I.handle s a).2) s
    t.world = (effective (ids s) as).foldl I.act s.world ∧
      t.log = s.log ++ (effective (ids s) as).map (·.deliveryId) := by
  induction as generalizing s with
  | nil => simp [effective]
  | cons a as ih =>
    simp only [List.foldl_cons]
    unfold effective
    by_cases htaken : a.deliveryId ∈ ids s
    · rw [I.handle_taken htaken, if_pos htaken]
      exact ih s
    · obtain ⟨hids, hworld, hlog⟩ := I.handle_free htaken
      obtain ⟨hworld', hlog'⟩ := ih (I.handle s a).2
      rw [if_neg htaken]
      rw [hids, hworld] at hworld'
      rw [hids, hlog] at hlog'
      have hrest := And.intro hworld' hlog'
      cases hvalid : a.signatureValid <;> simpa [hvalid] using hrest

/-- **Unsigned requests are without effect on signed ones exactly if they come first to no id.** -/
theorem unsigned_without_effect_iff (world : ω) (rs : List (Request β)) :
    let run := I.receiveAll ⟨Table.empty, world, []⟩
    ((run rs).log = (run (rs.filter I.isSigned)).log ∧
      (run rs).world = (run (rs.filter I.isSigned)).world ∧
      ∀ a ∈ I.admitted rs, a.signatureValid → (run rs).log.count a.deliveryId = 1) ↔
    SignedFirst (I.admitted rs) := by
  intro run
  have hempty : ids (⟨Table.empty, world, []⟩ : Inbox ω) = [] := rfl
  obtain ⟨hworld, hlog⟩ := I.foldl_handle ⟨Table.empty, world, []⟩ (I.admitted rs)
  obtain ⟨hworld', hlog'⟩ := I.foldl_handle ⟨Table.empty, world, []⟩ (I.admitted (rs.filter I.isSigned))
  rw [← receiveAll_eq, hempty] at hworld hlog hworld' hlog'
  rw [I.admitted_filter] at hworld' hlog'
  simp only [run, hworld, hlog, hworld', hlog', List.nil_append]
  rw [count_effective_iff]
  constructor
  · exact fun h => h.2.2
  · intro hfirst
    have hfilter : effective [] ((I.admitted rs).filter (·.signatureValid)) =
        effective [] (I.admitted rs) :=
      effective_filter fun a ha hvalid => ⟨Iff.rfl, fun _ => hfirst a ha hvalid⟩
    rw [hfilter]
    exact ⟨rfl, rfl, hfirst⟩

end Intake

namespace Sample

def intake : Intake Unit Unit Nat where
  size _ := 2
  parse _ := some (some ⟨none, none, none, none, "", ()⟩)
  decodeHex digits := if digits = ['0', '7'] then some [7] else none
  verifyHmac _ _ supplied := supplied = [7]
  process _ _ _ _ world := (world + 1, none)

def ping (signature : Option String) : Request Unit :=
  ⟨some "d-1", some "ping", signature, (), .ok (some "secret"), 1000, 1001⟩

end Sample

/-- **An unsigned request suppresses a signed delivery** that comes after it under the same id. -/
theorem unsigned_takes_id :
    let signed := Sample.ping (some "sha256=07")
    let run := Sample.intake.receiveAll ⟨Table.empty, 0, []⟩
    Sample.intake.isSigned signed = true ∧
      (Sample.intake.receive (run [Sample.ping none]) signed).1 = .ok .duplicate ∧
      ((run [Sample.ping none, signed]).log, (run [Sample.ping none, signed]).world) = ([], 0) ∧
      ((run [signed]).log, (run [signed]).world) = (["d-1"], 1) := by
  exact ⟨rfl, rfl, rfl, rfl⟩

end Gridops.Ci
