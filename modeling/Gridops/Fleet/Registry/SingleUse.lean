import Gridops.Fleet.Registry.Statements

/-!
# Codes are single use

Every statement leaves the codes on file as they were, adds one with a verifier of its own,
or uses or revokes one that was neither used nor revoked (`EnrollmentMove`). So a code on
file stays there, and once it is used or revoked it stays so.
-/

namespace Gridops.Fleet

open Gridops.Lib

/-! ## How codes age -/

theorem Enrollment.Ages.refl (e : Enrollment) : e.Ages e :=
  ⟨rfl, rfl, rfl, rfl, rfl, fun h => h, fun h => h⟩

theorem Enrollment.Ages.trans {e e' e'' : Enrollment} (h₁ : e.Ages e') (h₂ : e'.Ages e'') :
    e.Ages e'' where
  id := h₂.id.trans h₁.id
  codeVerifier := h₂.codeVerifier.trans h₁.codeVerifier
  mode := h₂.mode.trans h₁.mode
  issuedBy := h₂.issuedBy.trans h₁.issuedBy
  idempotencyKey := h₂.idempotencyKey.trans h₁.idempotencyKey
  consumed h := h₂.consumed (h₁.consumed h)
  revokedAt h := h₂.revokedAt (h₁.revokedAt h)

namespace EnrollmentMove

variable {es ts : Table Enrollment.id}

theorem ages (h : EnrollmentMove es ts) {e : Enrollment} (he : e ∈ es) : ∃ e' ∈ ts, e.Ages e' := by
  cases h with
  | same => exact ⟨e, he, .refl e⟩
  | insert _ h => exact ⟨e, (Table.mem_insert? h).mpr (.inl he), .refl e⟩
  | @age p f hf h =>
    refine ⟨_, Table.mem_update.mpr ⟨e, he, rfl⟩, ?_⟩
    split
    · next hp => exact h e hp
    · exact .refl e

theorem verifier_inj (h : EnrollmentMove es ts)
    (hes : ∀ e ∈ es, ∀ e' ∈ es, e.codeVerifier = e'.codeVerifier → e = e') :
    ∀ e ∈ ts, ∀ e' ∈ ts, e.codeVerifier = e'.codeVerifier → e = e' := by
  cases h with
  | same => exact hes
  | @insert new _ hnew h =>
    intro e he e' he' heq
    rcases (Table.mem_insert? h).mp he with he | rfl <;>
      rcases (Table.mem_insert? h).mp he' with he' | rfl
    · exact hes e he e' he' heq
    · exact absurd heq (hnew e he)
    · exact absurd heq.symm (hnew e' he')
    · rfl
  | @age p f hf h =>
    have hver : ∀ e, (if p e then f e else e).codeVerifier = e.codeVerifier := by
      intro e
      split
      · next hp => exact (h e hp).codeVerifier
      · rfl
    intro e he e' he' heq
    obtain ⟨x, hx, rfl⟩ := Table.mem_update.mp he
    obtain ⟨x', hx', rfl⟩ := Table.mem_update.mp he'
    rw [hver, hver] at heq
    rw [hes x hx x' hx' heq]

end EnrollmentMove

/-- Every code stays on file as it ages, and no two get one verifier. -/
structure KeepsCodes (es ts : Table Enrollment.id) : Prop where
  ages : ∀ e ∈ es, ∃ e' ∈ ts, e.Ages e'
  verifier_inj : (∀ e ∈ es, ∀ e' ∈ es, e.codeVerifier = e'.codeVerifier → e = e') →
    ∀ e ∈ ts, ∀ e' ∈ ts, e.codeVerifier = e'.codeVerifier → e = e'

namespace KeepsCodes

variable {es ts us : Table Enrollment.id}

theorem of_eq (h : ts = es) : KeepsCodes es ts := h ▸ ⟨fun e he => ⟨e, he, .refl e⟩, fun h => h⟩

theorem trans (h₁ : KeepsCodes es ts) (h₂ : KeepsCodes ts us) : KeepsCodes es us where
  ages e he := by
    obtain ⟨e', he', hage⟩ := h₁.ages e he
    obtain ⟨e'', he'', hage'⟩ := h₂.ages e' he'
    exact ⟨e'', he'', hage.trans hage'⟩
  verifier_inj h := h₂.verifier_inj (h₁.verifier_inj h)

theorem of_statement {r t : Registry} {now : Millis} {single : Prop}
    (h : Registry.Statement now single r t) : KeepsCodes r.enrollments t.enrollments := by
  cases h with
  | beside h => exact .of_eq (congrArg (·.1.2.2.2.2.2.2) h)
  | work _ _ h => exact .of_eq (congrArg (·.2.2.2.2.2.2) h)
  | codes h => exact ⟨fun e he => h.ages he, h.verifier_inj⟩
  | grantAuthority =>
    simp only [Registry.grantAuthority]
    split <;> exact .of_eq rfl
  | _ => exact .of_eq rfl

end KeepsCodes

namespace Registry

variable {H : Hashing} {r t : Registry} {user : UserId} {key : String} {answer : EnrollmentIssue}

theorem Issues.exists (h : Issues H r user key answer t) :
    ∃ e ∈ t.enrollments, e.issuedBy = user ∧ e.idempotencyKey = key := by
  cases h with
  | replay he huser hkey => exact ⟨_, he, huser, hkey⟩
  | created huser hkey hcode hnew hinsert =>
    exact ⟨_, (Table.mem_insert? hinsert).mpr (.inr rfl), huser, hkey⟩

theorem Issues.code_none (h : Issues H r user key answer t) {e : Enrollment}
    (he : e ∈ r.enrollments) (huser : e.issuedBy = user) (hkey : e.idempotencyKey = key) :
    answer.code = none := by
  cases h with
  | replay => rfl
  | created _ _ _ hnew _ => exact absurd ⟨huser, hkey⟩ (hnew e he).2

theorem consumeEnrollment_enrollments {d : Directory} {code : Secret} {fresh : FreshHost}
    {receipt : EnrollmentReceipt} {now : Millis}
    (h : r.consumeEnrollment H d code fresh now = .ok (receipt, t)) :
    ∃ e ∈ r.enrollments, e.codeVerifier = H.secret code ∧ now < e.expiresAt ∧
      e.consumed = none ∧ e.revokedAt = none ∧
      t.enrollments = (r.markConsumed e.id receipt.hostId now).enrollments := by
  obtain ⟨e, he, hver, hlive, hfree, hnot, hmode⟩ := consumeEnrollment_cases h
  refine ⟨e, he, hver, hlive, hfree, hnot, ?_⟩
  rcases hmode with ⟨-, henroll⟩ | ⟨hostId, epoch, revision, -, hrecover⟩
  · obtain ⟨-, -, credentials, event, rfl, -, -, rfl⟩ := enroll_cases henroll
    rfl
  · obtain ⟨x, p, credentials, event, -, -, -, -, -, rfl, -, rfl⟩ := recover_cases hrecover
    rfl

end Registry

namespace RegistryService

variable {H : Hashing} {digest : HandshakeRequest → String} {s : RegistryService}
  {a : RegistryCall} {t : Registry}

theorem keepsCodes_of_step {t : RegistryService} (h : s.step H digest a = some t) :
    KeepsCodes s.db.enrollments t.db.enrollments :=
  rel_of_step (R := fun r t => KeepsCodes r.enrollments t.enrollments)
    (fun _ _ h => .of_eq (congrArg (·.2.2.2.2.2.2) h)) (fun _ _ _ => .trans)
    (fun _ _ => .of_statement) h

theorem run_enrollments {as : List RegistryCall} {t : RegistryService}
    (hrun : (registryService H digest).Run s as t) :
    ∀ e ∈ s.db.enrollments, ∃ e' ∈ t.db.enrollments, e.Ages e' :=
  (hrun.rel (I := fun _ => True) (R := fun s t => KeepsCodes s.db.enrollments t.db.enrollments)
    (fun _ => .of_eq rfl) (fun _ _ _ => .trans) (fun _ _ _ _ _ _ => trivial)
    (fun _ _ _ _ hstep _ => keepsCodes_of_step hstep) trivial).ages

theorem run_verifier_inj {as : List RegistryCall} {control : Option ControlPlane} {now₀ : Millis}
    (hrun : (registryService H digest).Run (.initial control now₀) as s) :
    ∀ e ∈ s.db.enrollments, ∀ e' ∈ s.db.enrollments, e.codeVerifier = e'.codeVerifier → e = e' := by
  refine hrun.inv (I := fun s => ∀ e ∈ s.db.enrollments, ∀ e' ∈ s.db.enrollments,
    e.codeVerifier = e'.codeVerifier → e = e') ?_ (fun e he => by cases he)
  exact fun s a t _ hstep hs => (keepsCodes_of_step hstep).verifier_inj hs

end RegistryService

/-! ## What using a code does to hosts -/

namespace Registry

def hostRecord (r : Registry) (id : HostId) :
    Option Host × Option HostProfile × List Credential × List Rotation :=
  (r.store.hosts.find id, r.profiles.find id,
    r.store.credentials.rows.filter (·.hostId == id),
    r.store.rotations.rows.filter (·.hostId == id))

/-- One new host, which waits for approval, and no change to any other. -/
structure Creates (r t : Registry) (receipt : EnrollmentReceipt) : Prop where
  host : ∃ h, t.store.hosts.rows = r.store.hosts.rows ++ [h] ∧ h.id = receipt.hostId ∧
    h.epoch = 1 ∧ h.enrollmentState = .pending ∧ h.lifecycleState = .paused
  credential : receipt.credentialGeneration = 1 ∧ ∃ c ∈ t.store.credentials,
    c.id = receipt.credentialId ∧ c.hostId = receipt.hostId ∧ c.hostEpoch = 1 ∧ c.generation = 1
  others : ∀ id, id ≠ receipt.hostId → t.hostRecord id = r.hostRecord id

/-- No new host; one host is an epoch further, with every credential it had revoked. -/
structure Renews (r t : Registry) (hostId : HostId) : Prop where
  hosts : t.store.hosts.rows.map (·.id) = r.store.hosts.rows.map (·.id)
  epoch : ∃ x y, r.store.hosts.find hostId = some x ∧ t.store.hosts.find hostId = some y ∧
    y.epoch = x.epoch + 1
  revoked : ∀ c ∈ r.store.credentials, c.hostId = hostId →
    ∃ c' ∈ t.store.credentials, c'.id = c.id ∧ c'.revokedAt.isSome
  others : ∀ id, id ≠ hostId → t.hostRecord id = r.hostRecord id

variable {H : Hashing} {r t : Registry} {e : Enrollment} {fresh : FreshHost}
  {receipt : EnrollmentReceipt} {now : Millis}

theorem enroll_creates (h : r.enroll H e fresh now = .ok (receipt, t)) : r.Creates t receipt := by
  obtain ⟨hosts, -, credentials, -, rfl, hhosts, hcred, rfl⟩ := enroll_cases h
  have hins := (Store.insertCredential_some hcred).2
  refine ⟨⟨pendingHost fresh.hostId, (Table.insert?_some.mp hhosts).2, rfl, rfl, rfl, rfl⟩,
    ⟨rfl, _, (Table.mem_insert? hins).mpr (.inr rfl), rfl, rfl, rfl, rfl⟩, ?_⟩
  intro id hid
  have hne : fresh.hostId ≠ id := Ne.symm hid
  have hhost : hosts.find id = r.store.hosts.find id := by
    rw [Table.find_insert? hhosts]
    simp [pendingHost, hne]
  have hcredentials : credentials.rows.filter (·.hostId == id)
      = r.store.credentials.rows.filter (·.hostId == id) := by
    rw [(Table.insert?_some.mp hins).2]
    simp [hne]
  simp [hostRecord, audit, markConsumed, hhost, Table.find_upsert, hne, hcredentials]

theorem startOver_others (r : Registry) (e : Enrollment) {hostId id : HostId} (hne : id ≠ hostId)
    (epoch generation : Nat) (now : Millis) :
    (r.startOver e hostId epoch generation now).hostRecord id = r.hostRecord id := by
  have hhost : (r.startOver e hostId epoch generation now).store.hosts.find id
      = r.store.hosts.find id := by
    simp only [startOver, updateHost, markConsumed, Store.revokeCredentials, revokeOpenRotations,
      Table.find_update]
    cases hfind : r.store.hosts.find id with
    | none => rfl
    | some x => simp [Table.key_of_find hfind, hne]
  have hprofile : (r.startOver e hostId epoch generation now).profiles.find id
      = r.profiles.find id := by
    simp only [startOver, updateHost, markConsumed, revokeOpenRotations, Table.find_update]
    cases hfind : r.profiles.find id with
    | none => rfl
    | some p => simp [Table.key_of_find hfind, hne]
  have hcredentials : (r.startOver e hostId epoch generation now).store.credentials.rows.filter
      (·.hostId == id) = r.store.credentials.rows.filter (·.hostId == id) := by
    refine Table.filter_update (fun _ => by rfl) fun c hc => ?_
    simp only [Bool.and_eq_true, beq_iff_eq] at hc
    simp [hc.1.1, Ne.symm hne]
  have hrotations : (r.startOver e hostId epoch generation now).store.rotations.rows.filter
      (·.hostId == id) = r.store.rotations.rows.filter (·.hostId == id) := by
    refine Table.filter_update (fun _ => by rfl) fun x hx => ?_
    simp only [Bool.and_eq_true, beq_iff_eq] at hx
    simp [hx.1, Ne.symm hne]
  simp [hostRecord, hhost, hprofile, hcredentials, hrotations]

theorem recover_renews {hostId : HostId} {epoch revision : Nat}
    (h : r.recover H e hostId epoch revision fresh now = .ok (receipt, t)) :
    receipt.hostId = hostId ∧ r.Renews t hostId := by
  obtain ⟨x, p, credentials, -, hx, -, rfl, -, -, rfl, hcred, rfl⟩ :=
    recover_cases h
  have hins := (Store.insertCredential_some hcred).2
  refine ⟨rfl, ?_, ⟨x, (renewal (x.epoch + 1) (r.store.nextGeneration hostId) e.id).host x, hx,
    ?_, rfl⟩, ?_, ?_⟩
  · simp [audit, startOver, updateHost, Table.map_key_update, markConsumed,
      Store.revokeCredentials, revokeOpenRotations]
  · simp [audit, startOver, updateHost, markConsumed, Store.revokeCredentials, revokeOpenRotations,
      Table.find_update, hx, Table.key_of_find hx]
  · intro c hc hhost
    refine ⟨if c.revokedAt.isNone then { c with revokedAt := some now } else c,
      (Table.mem_insert? hins).mpr (.inl ?_), by split <;> rfl, ?_⟩
    · simp only [startOver, updateHost, markConsumed, Store.revokeCredentials, Table.mem_update]
      exact ⟨c, hc, by simp [hhost]⟩
    · split
      · rfl
      · next hnone => simpa [Option.isSome_iff_ne_none] using hnone
  · intro id hne
    have := r.startOver_others e hne (x.epoch + 1) (r.store.nextGeneration hostId) now
    rw [← this]
    have hcredentials : credentials.rows.filter (·.hostId == id)
        = (r.startOver e hostId (x.epoch + 1) (r.store.nextGeneration hostId)
          now).store.credentials.rows.filter (·.hostId == id) := by
      rw [(Table.insert?_some.mp hins).2]
      simp [Ne.symm hne]
    simp [hostRecord, audit, hcredentials]

end Registry

/-! ## Single use -/

def RegistryCall.issuer : RegistryCall → Option (UserId × String)
  | .issueEnrollment _ user key .. => some (user, key)
  | .recoverHost _ user _ _ key _ => some (user, key)
  | _ => none

namespace RegistryService

variable {H : Hashing} {digest : HandshakeRequest → String} {control : Option ControlPlane}
  {now₀ : Millis} {as : List RegistryCall} {s : RegistryService}

variable {s₀ : RegistryService}

theorem consumed_of_mem {d : Directory} {code : Secret} {fresh : FreshHost}
    (hrun : (registryService H digest).Run s₀ as s) (hmem : .consumeEnrollment d code fresh ∈ as) :
    ∃ e ∈ s.db.enrollments, e.codeVerifier = H.secret code ∧ e.consumed.isSome := by
  obtain ⟨-, cs, u, v, -, -, -, hstep, hrest⟩ := hrun.split hmem
  obtain ⟨db, hdb, rfl⟩ := Option.map_eq_some_iff.mp hstep
  obtain ⟨receipt, hok⟩ := ok_of_map_toOption hdb
  obtain ⟨e, he, hver, hlive, hfree, hnot, hmarked⟩ := Registry.consumeEnrollment_enrollments hok
  have hused : { e with consumed := some (u.now, receipt.hostId) } ∈ db.enrollments := by
    rw [hmarked]
    simp only [Registry.markConsumed, Table.mem_update]
    exact ⟨e, he, by simp [hfree, hnot, hlive]⟩
  obtain ⟨e', he', hage⟩ := run_enrollments hrest _ hused
  exact ⟨e', he', hage.codeVerifier.trans hver, hage.consumed rfl⟩

theorem revoked_of_mem {d : Directory} {user : UserId} {id : EnrollmentId}
    (hrun : (registryService H digest).Run s₀ as s) (hmem : .revokeEnrollment d user id ∈ as) :
    ∃ e ∈ s.db.enrollments, e.id = id ∧ e.revokedAt.isSome := by
  obtain ⟨-, cs, u, v, -, -, -, hstep, hrest⟩ := hrun.split hmem
  obtain ⟨db, hdb, rfl⟩ := Option.map_eq_some_iff.mp hstep
  have hrevoked : ∃ e ∈ db.enrollments, e.id = id ∧ e.revokedAt.isSome := by
    rcases Registry.revokeEnrollment_cases (ok_of_toOption hdb) with
      ⟨e, he, hrevoked, rfl⟩ | ⟨e, event, he, hfree, hnot, rfl⟩
    · exact ⟨e, Table.mem_of_find he, Table.key_of_find he, hrevoked⟩
    · refine ⟨{ e with revokedAt := some u.now }, ?_, (Table.key_of_find he : e.id = id), rfl⟩
      simp only [Registry.audit, Table.mem_update]
      exact ⟨e, Table.mem_of_find he, by simp [Table.key_of_find he, hfree, hnot]⟩
  obtain ⟨e, he, rfl, hrev⟩ := hrevoked
  obtain ⟨e', he', hage⟩ := run_enrollments hrest e he
  exact ⟨e', he', hage.id, hage.revokedAt hrev⟩

theorem issued_of_mem {a : RegistryCall} {user : UserId} {key : String}
    (hrun : (registryService H digest).Run s₀ as s) (hmem : a ∈ as)
    (hissuer : a.issuer = some (user, key)) :
    ∃ e ∈ s.db.enrollments, e.issuedBy = user ∧ e.idempotencyKey = key := by
  obtain ⟨-, cs, u, v, -, -, -, hstep, hrest⟩ := hrun.split hmem
  obtain ⟨db, hdb, rfl⟩ := Option.map_eq_some_iff.mp hstep
  have hissued : ∃ answer, Registry.Issues H u.db user key answer db := by
    cases a <;> simp only [RegistryCall.issuer, Option.some.injEq, Prod.mk.injEq, reduceCtorEq]
      at hissuer
    · obtain ⟨answer, hok⟩ := ok_of_map_toOption hdb
      exact ⟨answer, hissuer.1 ▸ hissuer.2 ▸ Registry.issueEnrollment_issues hok⟩
    · obtain ⟨answer, hok⟩ := ok_of_map_toOption hdb
      exact ⟨answer, hissuer.1 ▸ hissuer.2 ▸ Registry.recoverHost_issues hok⟩
  obtain ⟨answer, hissued⟩ := hissued
  obtain ⟨e, he, rfl, rfl⟩ := hissued.exists
  obtain ⟨e', he', hage⟩ := run_enrollments hrest e he
  exact ⟨e', he', hage.issuedBy, hage.idempotencyKey⟩

/-- **Codes are single use**, and a second call under the key of an earlier one gives none away. -/
theorem codes_single_use (hrun : (registryService H digest).Run (.initial control now₀) as s) :
    (∀ d code fresh receipt t, s.db.consumeEnrollment H d code fresh s.now = .ok (receipt, t) →
      (∀ d' fresh', .consumeEnrollment d' code fresh' ∉ as) ∧
      ∃ e ∈ s.db.enrollments, e.codeVerifier = H.secret code ∧ s.now < e.expiresAt ∧
        (∀ d' user, .revokeEnrollment d' user e.id ∉ as) ∧
        match e.mode with
        | .normal => s.db.Creates t receipt
        | .recovery hostId _ _ => receipt.hostId = hostId ∧ s.db.Renews t hostId) ∧
    ∀ a ∈ as, ∀ user key, a.issuer = some (user, key) →
      (∀ d scope intendedHostId ttl fresh answer t,
        s.db.issueEnrollment H d user key scope intendedHostId ttl fresh s.now = .ok (answer, t) →
          answer.code = none) ∧
      ∀ d hostId revision fresh answer t,
        s.db.recoverHost H d user hostId revision key fresh s.now = .ok (answer, t) →
          answer.code = none := by
  have hinj := run_verifier_inj hrun
  constructor
  · intro d code fresh receipt t hok
    obtain ⟨e, he, hver, hlive, hfree, hnot, hmode⟩ := Registry.consumeEnrollment_cases hok
    refine ⟨fun d' fresh' hmem => ?_, e, he, hver, hlive, fun d' user hmem => ?_, ?_⟩
    · obtain ⟨e', he', hver', hused⟩ := consumed_of_mem hrun hmem
      rw [hinj e' he' e he (hver'.trans hver.symm), hfree] at hused
      cases hused
    · obtain ⟨e', he', hid, hrevoked⟩ := revoked_of_mem hrun hmem
      rw [Table.eq_of_key he' he hid, hnot] at hrevoked
      cases hrevoked
    · rcases hmode with ⟨hmode, henroll⟩ | ⟨hostId, epoch, revision, hmode, hrecover⟩
      · rw [hmode]
        exact Registry.enroll_creates henroll
      · rw [hmode]
        exact Registry.recover_renews hrecover
  · intro a ha user key hissuer
    obtain ⟨e, he, huser, hkey⟩ := issued_of_mem hrun ha hissuer
    exact ⟨fun d scope intendedHostId ttl fresh answer t hok =>
        (Registry.issueEnrollment_issues hok).code_none he huser hkey,
      fun d hostId revision fresh answer t hok =>
        (Registry.recoverHost_issues hok).code_none he huser hkey⟩

end RegistryService

open RegistryService in
theorem codes_single_use_sample : ∃ s receipt t answer u,
    (registryService Sample.hashing fun _ => "").exec (.initial none 0) Sample.recoverCalls
      = some s ∧
    s.db.consumeEnrollment Sample.hashing Sample.directory Sample.recoveryCode
      ⟨9, 9, 2, Sample.secondSecret⟩ s.now = .ok (receipt, t) ∧
    s.db.recoverHost Sample.hashing Sample.directory 1 1 1 "recover" ⟨3, "x"⟩ s.now
      = .ok (answer, u) ∧
    receipt.hostId = 1 ∧ s.db.Renews t 1 ∧ answer.code = none := by
  obtain ⟨s, receipt, t, answer, u, hexec, hconsume, hreplay, hmode⟩ : ∃ s receipt t answer u,
      (registryService Sample.hashing fun _ => "").exec (.initial none 0) Sample.recoverCalls
        = some s ∧
      s.db.consumeEnrollment Sample.hashing Sample.directory Sample.recoveryCode
        ⟨9, 9, 2, Sample.secondSecret⟩ s.now = .ok (receipt, t) ∧
      s.db.recoverHost Sample.hashing Sample.directory 1 1 1 "recover" ⟨3, "x"⟩ s.now
        = .ok (answer, u) ∧
      s.db.enrollments.rows.map (fun e => (e.codeVerifier, e.mode))
        = [(Sample.enrollmentCode, .normal), (Sample.recoveryCode, .recovery 1 1 1)] :=
    ⟨_, _, _, _, _, rfl, rfl, rfl, rfl⟩
  have hall := codes_single_use (Machine.run_iff_exec.mpr hexec)
  obtain ⟨-, e, he, hver, -, -, heffect⟩ := hall.1 _ _ _ _ _ hconsume
  have hrecovery : e.mode = .recovery 1 1 1 := by
    have hmem : (e.codeVerifier, e.mode) ∈ s.db.enrollments.rows.map
        fun e => (e.codeVerifier, e.mode) := List.mem_map.mpr ⟨e, he, rfl⟩
    rw [hmode, hver] at hmem
    simpa [Sample.hashing, Sample.enrollmentCode, Sample.recoveryCode] using hmem
  rw [hrecovery] at heffect
  refine ⟨s, receipt, t, answer, u, hexec, hconsume, hreplay, heffect.1, heffect.2, ?_⟩
  exact (hall.2 (.recoverHost Sample.directory 1 1 1 "recover" ⟨2, Sample.recoveryCode⟩)
    (by simp [Sample.recoverCalls]) 1 "recover" rfl).2 _ _ _ _ _ _ hreplay

end Gridops.Fleet
