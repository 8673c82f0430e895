import Gridops.Fleet.Registry.Rotation

/-!
# Credential generations of one host

`Store.Rotates s h C₀ C` describes the credentials of host `h` between transactions
while nobody revokes a credential by hand, recovers or retires the host: `C` is the
current generation, everything older is revoked, nothing newer is limited, and an
open rotation explains every limit on the current credential.

Each rotation transaction keeps this, possibly for a later `C`, and `Store.Extends`:
a credential keeps its generation and verifier, a rotation its next generation.
-/

namespace Gridops.Fleet

open Gridops.Lib

/-- The `CHECK` that ties a rotation's phase to its columns. -/
def Rotation.isPhased (x : Rotation) : Bool :=
  match x.phase with
  | .requested => x.proposedVerifier.isNone && x.exchangedAt.isNone && x.overlapExpiresAt.isNone
      && x.acknowledgedAt.isNone && x.revokedAt.isNone
  | .exchanged => x.proposedVerifier.isSome && x.exchangedAt.isSome && x.overlapExpiresAt.isSome
      && x.acknowledgedAt.isNone && x.revokedAt.isNone
  | .acknowledged => x.proposedVerifier.isSome && x.exchangedAt.isSome
      && x.overlapExpiresAt.isSome && x.acknowledgedAt.isSome && x.revokedAt.isNone
  | .revoked => x.revokedAt.isSome && x.acknowledgedAt.isNone
      && x.proposedVerifier.isSome == x.exchangedAt.isSome
      && x.exchangedAt.isSome == x.overlapExpiresAt.isSome

theorem Rotation.isOpen_iff {x : Rotation} (h : x.isPhased) :
    x.isOpen ↔ x.phase = .requested ∨ x.phase = .exchanged := by
  unfold isPhased at h
  unfold isOpen
  cases hphase : x.phase <;> simp_all

/-- What no update of a credential touches: its identity is immutable. -/
structure Credential.Keeps (c c' : Credential) : Prop where
  id : c'.id = c.id
  hostId : c'.hostId = c.hostId
  hostEpoch : c'.hostEpoch = c.hostEpoch
  generation : c'.generation = c.generation
  verifier : c'.verifier = c.verifier

/-- What an acknowledgement by `auth` does to a credential: one of an older generation of
the same host is revoked. -/
structure Credential.Superseded (c : Credential) (auth : AuthenticatedHost) (c' : Credential) :
    Prop extends c.Keeps c' where
  overlapExpiresAt : c'.overlapExpiresAt = c.overlapExpiresAt
  revokedAt : c'.revokedAt.isSome ↔
    c.revokedAt.isSome ∨ c.hostId = auth.hostId ∧ c.generation < auth.generation

theorem Credential.superseded_revoke {c d : Credential} {auth : AuthenticatedHost} {now : Millis}
    (hkeeps : c.Keeps d) (hoverlap : d.overlapExpiresAt = c.overlapExpiresAt)
    (hrevoked : d.revokedAt = c.revokedAt) :
    c.Superseded auth (if d.hostId == auth.hostId && decide (d.generation < auth.generation)
      && d.revokedAt.isNone then { d with revokedAt := some now } else d) := by
  have hhost := hkeeps.hostId
  have hgen := hkeeps.generation
  split
  · next hold =>
    simp only [Bool.and_eq_true, beq_iff_eq, decide_eq_true_eq, hhost, hgen] at hold
    exact { id := hkeeps.id, hostId := hhost, hostEpoch := hkeeps.hostEpoch, generation := hgen
            verifier := hkeeps.verifier, overlapExpiresAt := hoverlap
            revokedAt := by simp [hold.1] }
  · next hold =>
    refine { toKeeps := hkeeps, overlapExpiresAt := hoverlap, revokedAt := ?_ }
    simp only [Bool.and_eq_true, beq_iff_eq, decide_eq_true_eq, hhost, hgen, hrevoked,
      Option.isNone_iff_eq_none] at hold
    rw [hrevoked, iff_self_or]
    intro hstale
    exact Option.isSome_iff_ne_none.mpr fun hnone => hold ⟨hstale, hnone⟩

namespace Store

def Holds (s : Store) (h : HostId) (c : Credential) : Prop := c ∈ s.credentials ∧ c.hostId = h

def Rotating (s : Store) (h : HostId) (x : Rotation) : Prop := x ∈ s.rotations ∧ x.hostId = h

/-- Generation `C` is the current one of host `h`, which was last enrolled at `C₀`. -/
structure Rotates (s : Store) (h : HostId) (C₀ C : Nat) : Prop where
  host : ∃ r, s.hosts.find h = some r ∧ r.mayAuthenticate ∧
    r.currentCredentialGeneration = some C ∧
    ∀ c, s.Holds h c → C₀ ≤ c.generation → c.hostEpoch = r.epoch
  le_current : C₀ ≤ C
  generation_inj : ∀ c c', s.Holds h c → s.Holds h c' → c.generation = c'.generation → c = c'
  verifier_inj : ∀ c c', s.Holds h c → s.Holds h c' → c.verifier = c'.verifier → c = c'
  current : ∃ c, s.Holds h c ∧ c.generation = C
  revoked_iff : ∀ c, s.Holds h c → (c.revokedAt.isSome ↔ c.generation < C)
  limited : ∀ c t, s.Holds h c → C ≤ c.generation → c.overlapExpiresAt = some t →
    ∃ x, s.Rotating h x ∧ x.phase = .exchanged ∧ x.overlapExpiresAt = some t
  phased : ∀ x, s.Rotating h x → x.isPhased
  open_inj : ∀ x y, s.Rotating h x → s.Rotating h y → x.isOpen → y.isOpen → x = y
  requested : ∀ x, s.Rotating h x → x.phase = .requested →
    x.oldGeneration = C ∧ ∀ c, s.Holds h c → c.generation < x.nextGeneration
  exchanged : ∀ x, s.Rotating h x → x.phase = .exchanged →
    C < x.nextGeneration ∧ ∀ c, s.Holds h c → C ≤ c.generation →
      c.overlapExpiresAt = if c.generation = C then x.overlapExpiresAt else none
  acknowledged : ∀ x, s.Rotating h x → x.phase = .acknowledged → x.nextGeneration ≤ C
  reached : C = C₀ ∨ ∃ x, s.Rotating h x ∧ x.phase = .acknowledged ∧ x.nextGeneration = C

/-- What no transaction takes back about a host's credentials and rotations. -/
structure Extends (s t : Store) (h : HostId) : Prop where
  credential : ∀ c, s.Holds h c → ∃ c', t.Holds h c' ∧
    c'.id = c.id ∧ c'.generation = c.generation ∧ c'.verifier = c.verifier
  rotation : ∀ x, s.Rotating h x → ∃ x', t.Rotating h x' ∧
    x'.id = x.id ∧ x'.nextGeneration = x.nextGeneration

theorem Extends.refl (s : Store) (h : HostId) : s.Extends s h :=
  ⟨fun c hc => ⟨c, hc, rfl, rfl, rfl⟩, fun x hx => ⟨x, hx, rfl, rfl⟩⟩

theorem Extends.trans {s t u : Store} {h : HostId} (h₁ : s.Extends t h) (h₂ : t.Extends u h) :
    s.Extends u h where
  credential c hc := by
    obtain ⟨c', hc', hid, hgen, hver⟩ := h₁.credential c hc
    obtain ⟨c'', hc'', hid', hgen', hver'⟩ := h₂.credential c' hc'
    exact ⟨c'', hc'', hid'.trans hid, hgen'.trans hgen, hver'.trans hver⟩
  rotation x hx := by
    obtain ⟨x', hx', hid, hnext⟩ := h₁.rotation x hx
    obtain ⟨x'', hx'', hid', hnext'⟩ := h₂.rotation x' hx'
    exact ⟨x'', hx'', hid'.trans hid, hnext'.trans hnext⟩

variable {auth : AuthenticatedHost} {c : Credential} {user : UserId} {x : Rotation}
  {operationId : RotationId} {receipt : RotationExchangeReceipt} {verifier : Verifier}
  {credentialId : CredentialId}

variable {s t : Store} {h : HostId} {C₀ C : Nat} {now : Millis} {H : Hashing}

/-! ## Which secret is accepted -/

theorem authenticate_ok {secret : Secret} (hauth : s.authenticate H h secret now = .ok auth) :
    validateSecretText secret ∧ auth.hostId = h ∧ ∃ c, s.Holds h c ∧ c.isLive now ∧
      c.verifier = H.secret secret ∧ auth.credentialId = c.id ∧ auth.generation = c.generation := by
  obtain ⟨hvalid, r, c, -, hc, hhost, hlive, hver, -, -, rfl⟩ := authenticate_cases hauth
  exact ⟨hvalid, rfl, c, ⟨hc, hhost⟩, hlive, hver, rfl, rfl⟩

/-- A secret whose hash is on file is accepted exactly while that credential is live. -/
theorem Rotates.authenticate_iff_isLive (hs : s.Rotates h C₀ C) {secret : Secret}
    (hvalid : validateSecretText secret) (hc : s.Holds h c) (hver : c.verifier = H.secret secret)
    (hge : C₀ ≤ c.generation) :
    (∃ auth, s.authenticate H h secret now = .ok auth) ↔ c.isLive now := by
  constructor
  · rintro ⟨auth, hauth⟩
    obtain ⟨-, -, c', hc', hlive, hver', -⟩ := authenticate_ok hauth
    exact hs.verifier_inj c' c hc' hc (hver'.trans hver.symm) ▸ hlive
  · intro hlive
    obtain ⟨r, hr, hmay, -, hepoch⟩ := hs.host
    have hsome : (s.credentials.rows.find? fun c =>
        c.hostId == h && c.isLive now && c.verifier == H.secret secret).isSome :=
      List.find?_isSome.mpr ⟨c, hc.1, by simp [hc.2, hlive, hver]⟩
    obtain ⟨c', hfind⟩ := Option.isSome_iff_exists.mp hsome
    have hmatch := List.find?_some hfind
    simp only [Bool.and_eq_true, beq_iff_eq] at hmatch
    have hc' : s.Holds h c' := ⟨List.mem_of_find?_eq_some hfind, hmatch.1.1⟩
    have hgen : C₀ ≤ c'.generation :=
      hs.verifier_inj c' c hc' hc (hmatch.2.trans hver.symm) ▸ hge
    simp [authenticate, hvalid, hr, hfind, hmay, hepoch c' hc' hgen]

/-- An older credential is live exactly while every rotation past it is only exchanged, and its
overlap lasts. -/
theorem Rotates.isLive_iff (hs : s.Rotates h C₀ C) (hc : s.Holds h c) (hge : C₀ ≤ c.generation)
    (hle : c.generation ≤ C) :
    c.isLive now ↔ ∀ x, s.Rotating h x → x.phase = .exchanged ∨ x.phase = .acknowledged →
      x.nextGeneration ≤ c.generation ∨
        x.phase = .exchanged ∧ x.overlapExpiresAt.any (now < ·) := by
  have hrevoked := hs.revoked_iff c hc
  constructor
  · intro hlive x hx hphase
    simp only [Credential.isLive, Bool.and_eq_true] at hlive
    have hC : c.generation = C := by
      have : ¬ c.generation < C := by simp [← hrevoked, hlive.1]
      omega
    rcases hphase with hphase | hphase
    · have hoverlap := (hs.exchanged x hx hphase).2 c hc (Nat.le_of_eq hC.symm)
      rw [if_pos hC] at hoverlap
      have hsome : x.overlapExpiresAt.isSome := by
        have := hs.phased x hx
        simp only [Rotation.isPhased, hphase, Bool.and_eq_true] at this
        exact this.1.1.2
      obtain ⟨u, hu⟩ := Option.isSome_iff_exists.mp hsome
      rw [hoverlap] at hlive
      exact .inr ⟨hphase, by simpa [hu] using hlive.2⟩
    · exact .inl (hC ▸ hs.acknowledged x hx hphase)
  · intro hall
    have hC : c.generation = C := by
      rcases hs.reached with hstart | ⟨x, hx, hphase, hnext⟩
      · omega
      · rcases hall x hx (.inr hphase) with hle' | ⟨hex, -⟩
        · omega
        · rw [hphase] at hex
          cases hex
    have hnot : c.revokedAt = none := by
      rw [← Option.not_isSome_iff_eq_none, hrevoked]
      omega
    simp only [Credential.isLive, hnot]
    cases hoverlap : c.overlapExpiresAt with
    | none => rfl
    | some u =>
      obtain ⟨x, hx, hphase, hu⟩ := hs.limited c u hc (Nat.le_of_eq hC.symm) hoverlap
      have hnewer := (hs.exchanged x hx hphase).1
      rcases hall x hx (.inl hphase) with hle' | ⟨-, hany⟩
      · omega
      · simpa [hu] using hany

/-! ## Requesting -/

theorem mem_revokeExpired {y : Rotation} :
    y ∈ (s.revokeExpiredRotations h user now).rotations ↔ ∃ x ∈ s.rotations,
      (if isExpired h now x then { x with phase := .revoked, revokedAt := some now } else x) = y := by
  simp [revokeExpiredRotations, Table.mem_update]

theorem rotating_revokeExpired {y : Rotation}
    (hy : (s.revokeExpiredRotations h user now).Rotating h y) :
    s.Rotating h y ∨ ∃ x, s.Rotating h x ∧ x.phase = .requested ∧
      y = { x with phase := .revoked, revokedAt := some now } := by
  obtain ⟨x, hx, hxy⟩ := mem_revokeExpired.mp hy.1
  split at hxy
  · next hexp =>
    simp only [isExpired, Bool.and_eq_true, beq_iff_eq] at hexp
    exact .inr ⟨x, ⟨hx, hexp.1.1⟩, hexp.1.2, hxy.symm⟩
  · exact .inl ⟨hxy ▸ hx, hy.2⟩

theorem rotating_revokeExpired_of_ne (hx : s.Rotating h x) (hphase : x.phase ≠ .requested) :
    (s.revokeExpiredRotations h user now).Rotating h x :=
  ⟨mem_revokeExpired.mpr ⟨x, hx.1, by simp [isExpired, hphase]⟩, hx.2⟩

theorem Extends.revokeExpired :
    s.Extends (s.revokeExpiredRotations h user now) h where
  credential c hc := ⟨c, hc, rfl, rfl, rfl⟩
  rotation x hx := by
    refine ⟨_, ⟨mem_revokeExpired.mpr ⟨x, hx.1, rfl⟩, ?_⟩, ?_, ?_⟩ <;> split
    all_goals first | exact hx.2 | rfl

theorem Rotates.revokeExpired (hs : s.Rotates h C₀ C) :
    (s.revokeExpiredRotations h user now).Rotates h C₀ C := by
  have hold : ∀ y, (s.revokeExpiredRotations h user now).Rotating h y → y.phase ≠ .revoked →
      s.Rotating h y := by
    intro y hy hphase
    rcases rotating_revokeExpired hy with hy | ⟨x, -, -, rfl⟩
    · exact hy
    · exact absurd rfl hphase
  have hphased : ∀ y, (s.revokeExpiredRotations h user now).Rotating h y → y.isPhased := by
    intro y hy
    rcases rotating_revokeExpired hy with hy | ⟨x, hx, hphase, rfl⟩
    · exact hs.phased y hy
    · have := hs.phased x hx
      simp only [Rotation.isPhased, hphase, Bool.and_eq_true, Option.isNone_iff_eq_none] at this
      simp [Rotation.isPhased, this]
  have hopen : ∀ y, (s.revokeExpiredRotations h user now).Rotating h y → y.isOpen →
      s.Rotating h y := by
    intro y hy hop
    refine hold y hy fun hphase => ?_
    rcases (Rotation.isOpen_iff (hphased y hy)).mp hop with hp | hp <;> rw [hphase] at hp <;> cases hp
  refine { hs with
    phased := hphased, limited := ?_, open_inj := ?_, requested := ?_, exchanged := ?_
    acknowledged := ?_, reached := ?_ }
  · intro c u hc hle hu
    obtain ⟨x, hx, hphase, hxu⟩ := hs.limited c u hc hle hu
    exact ⟨x, rotating_revokeExpired_of_ne hx (by simp [hphase]), hphase, hxu⟩
  · exact fun x y hx hy hox hoy => hs.open_inj x y (hopen x hx hox) (hopen y hy hoy) hox hoy
  · exact fun x hx hphase => hs.requested x (hold x hx (by simp [hphase])) hphase
  · exact fun x hx hphase => hs.exchanged x (hold x hx (by simp [hphase])) hphase
  · exact fun x hx hphase => hs.acknowledged x (hold x hx (by simp [hphase])) hphase
  · exact hs.reached.imp_right fun ⟨x, hx, hphase, hnext⟩ =>
      ⟨x, rotating_revokeExpired_of_ne hx (by simp [hphase]), hphase, hnext⟩

theorem generation_lt_nextGeneration (hc : s.Holds h c) :
    c.generation < s.nextGeneration h := by
  have hmem : c.generation ∈ (s.credentials.rows.filter fun c => c.hostId == h).map (·.generation) :=
    List.mem_map_of_mem (List.mem_filter.mpr ⟨hc.1, by simp [hc.2]⟩)
  have := List.le_max?_getD_of_mem (k := 0) hmem
  simp only [nextGeneration]
  omega

theorem Rotates.insertRotation (hs : s.Rotates h C₀ C) {rotations : Table Rotation.id}
    (hins : s.rotations.insert? x = some rotations) (hhost : x.hostId = h)
    (hphase : x.phase = .requested) (hphased : x.isPhased) (hold : x.oldGeneration = C)
    (hnext : ∀ c, s.Holds h c → c.generation < x.nextGeneration)
    (hnone : ∀ y, s.Rotating h y → ¬ y.isOpen) :
    { s with rotations }.Rotates h C₀ C := by
  have hmem : ∀ y, { s with rotations }.Rotating h y ↔ s.Rotating h y ∨ y = x := by
    intro y
    constructor
    · rintro ⟨hy, hyh⟩
      exact ((Table.mem_insert? hins).mp hy).imp_left fun hy => ⟨hy, hyh⟩
    · rintro (hy | rfl)
      · exact ⟨(Table.mem_insert? hins).mpr (.inl hy.1), hy.2⟩
      · exact ⟨(Table.mem_insert? hins).mpr (.inr rfl), hhost⟩
  refine { hs with
    limited := ?_, phased := ?_, open_inj := ?_, requested := ?_, exchanged := ?_
    acknowledged := ?_, reached := ?_ }
  · intro c u hc hle hu
    obtain ⟨y, hy, hrest⟩ := hs.limited c u hc hle hu
    exact ⟨y, (hmem y).mpr (.inl hy), hrest⟩
  · intro y hy
    rcases (hmem y).mp hy with hy | rfl
    · exact hs.phased y hy
    · exact hphased
  · intro y z hy hz hoy hoz
    rcases (hmem y).mp hy with hy | rfl
    · exact absurd hoy (hnone y hy)
    · rcases (hmem z).mp hz with hz | rfl
      · exact absurd hoz (hnone z hz)
      · rfl
  · intro y hy hp
    rcases (hmem y).mp hy with hy | rfl
    · exact hs.requested y hy hp
    · exact ⟨hold, hnext⟩
  · intro y hy hp
    rcases (hmem y).mp hy with hy | rfl
    · exact hs.exchanged y hy hp
    · rw [hphase] at hp
      cases hp
  · intro y hy hp
    rcases (hmem y).mp hy with hy | rfl
    · exact hs.acknowledged y hy hp
    · rw [hphase] at hp
      cases hp
  · exact hs.reached.imp_right fun ⟨y, hy, hrest⟩ => ⟨y, (hmem y).mpr (.inl hy), hrest⟩

/-- A granted request changes nothing, or expires old ones and adds one with no other open. -/
theorem requestRotation_cases {isSystemAdmin : Bool} {expected : Nat} {key : String}
    {receipt : RotationRequestReceipt}
    (hreq : s.requestRotation isSystemAdmin user h expected key operationId now = .ok (receipt, t)) :
    t = s ∨ ∃ r x rotations e, s.hosts.find h = some r ∧
      (∀ C, r.currentCredentialGeneration = some C → C = x.oldGeneration) ∧
      (∀ y, (s.revokeExpiredRotations h user now).Rotating h y → ¬ y.isOpen) ∧
      x.hostId = h ∧ x.phase = .requested ∧ x.isPhased ∧
      x.nextGeneration = (s.revokeExpiredRotations h user now).nextGeneration h ∧
      (s.revokeExpiredRotations h user now).rotations.insert? x = some rotations ∧
      t = { s.revokeExpiredRotations h user now with rotations }.auditAndEvent e := by
  unfold requestRotation at hreq
  split at hreq
  · cases hreq
  split at hreq
  · cases hreq
  split at hreq
  · split at hreq <;> cases hreq
    exact .inl rfl
  unfold openRotation at hreq
  split at hreq
  · cases hreq
  next r hr =>
  split at hreq
  · cases hreq
  split at hreq
  · cases hreq
  next hcur =>
  simp only at hreq
  split at hreq
  · cases hreq
  next hopen =>
  split at hreq
  · cases hreq
  next old hold =>
  split at hreq
  · cases hreq
  next rotations hins =>
  cases hreq
  have hgen := List.find?_some hold
  simp only [Bool.and_eq_true, beq_iff_eq] at hgen
  refine .inr ⟨r, _, rotations, _, hr, ?_, ?_, rfl, rfl, rfl, rfl, hins, rfl⟩
  · intro C hC
    simpa [hC, hgen.1.1.2] using hcur
  · intro y hy hop
    exact hopen (List.any_eq_true.mpr ⟨y, hy.1, by simp [hy.2, hop]⟩)

/-! ## Exchanging -/

/-- A first exchange adds the new credential, limits the old one and moves the
rotation on, all at the same time. -/
theorem exchangeNew_ok (hex : s.exchangeNew x verifier credentialId now = .ok (receipt, t)) :
    x.phase = .requested ∧ t.hosts = s.hosts ∧ ∃ new r, s.hosts.find x.hostId = some r ∧
      new = ⟨credentialId, x.hostId, r.epoch, x.nextGeneration, verifier, none, none, none⟩ ∧
      (∀ c ∈ s.credentials, c.verifier ≠ verifier) ∧
      (∃ c, (c ∈ s.credentials ∨ c = new) ∧ x.isOld c) ∧
      (∀ c', c' ∈ t.credentials ↔ ∃ c, (c ∈ s.credentials ∨ c = new) ∧
        (if x.isOld c then { c with overlapExpiresAt := some (now + rotationOverlapMillis) }
          else c) = c') ∧
      ∀ y, y ∈ t.rotations ↔ ∃ z ∈ s.rotations,
        (if z.id == x.id then
          { z with
            phase := .exchanged, proposedVerifier := some verifier, exchangedAt := some now
            overlapExpiresAt := some (now + rotationOverlapMillis) } else z) = y := by
  obtain ⟨r, credentials, -, hr, hins, ⟨old, hold, hisOld⟩, hphase, rfl⟩ :=
    exchangeNew_cases hex
  obtain ⟨hfree, hins⟩ := insertCredential_some hins
  refine ⟨hphase, rfl, _, r, hr, rfl, fun c hc => (hfree c hc).1,
    ⟨old, (Table.mem_insert? hins).mp hold, hisOld⟩, ?_, ?_⟩
  · intro c'
    simp [auditAndEvent, Table.mem_update, Table.mem_insert? hins]
  · intro y
    simp [auditAndEvent, Table.mem_update]

theorem Rotates.unlimited (hs : s.Rotates h C₀ C) (hx : s.Rotating h x)
    (hphase : x.phase = .requested) (hc : s.Holds h c) (hle : C ≤ c.generation) :
    c.overlapExpiresAt = none := by
  cases hu : c.overlapExpiresAt with
  | none => rfl
  | some u =>
    obtain ⟨y, hy, hyphase, -⟩ := hs.limited c u hc hle hu
    have hyx : y = x := hs.open_inj y x hy hx
      ((Rotation.isOpen_iff (hs.phased y hy)).mpr (.inr hyphase))
      ((Rotation.isOpen_iff (hs.phased x hx)).mpr (.inl hphase))
    rw [hyx, hphase] at hyphase
    cases hyphase

/-- What a first exchange by this host does to its credentials: those on file keep their
identity, and the current one is limited. -/
structure Exchanges (s t : Store) (h : HostId) (C : Nat) (x new' : Rotation) (new : Credential) :
    Prop where
  hosts : t.hosts = s.hosts
  credential : ∀ c', t.Holds h c' ↔ c' = new ∨ ∃ c, s.Holds h c ∧ c' =
    { c with overlapExpiresAt := if c.generation = C then new'.overlapExpiresAt
        else c.overlapExpiresAt }
  rotation : ∀ y, t.Rotating h y ↔ y = new' ∨ s.Rotating h y ∧ y ≠ x

theorem Rotates.exchangeNew_exchanges (hs : s.Rotates h C₀ C) (hx : s.Rotating h x)
    (hex : s.exchangeNew x verifier credentialId now = .ok (receipt, t)) :
    x.phase = .requested ∧ ∃ r new new', s.hosts.find h = some r ∧
      new = ⟨credentialId, h, r.epoch, x.nextGeneration, verifier, none, none, none⟩ ∧
      new' = { x with
        phase := .exchanged, proposedVerifier := some verifier, exchangedAt := some now
        overlapExpiresAt := some (now + rotationOverlapMillis) } ∧
      (∀ c, s.Holds h c → c.verifier ≠ verifier) ∧ s.Exchanges t h C x new' new := by
  obtain ⟨hphase, hhosts, new, r, hr, hnew, hver, ⟨old, hold, hisOld⟩, hcred, hrot⟩ :=
    exchangeNew_ok hex
  obtain ⟨holdC, hnewer⟩ := hs.requested x hx hphase
  obtain ⟨cur, hcur, hcurC⟩ := hs.current
  have hCnext : C < x.nextGeneration := hcurC ▸ hnewer cur hcur
  rw [hx.2] at hr hnew
  -- the credential that is replaced is the one of the current generation
  have hgen : ∀ c, x.isOld c → c.hostId = h ∧ c.generation = C := by
    intro c hc
    simp only [Rotation.isOld, Bool.and_eq_true, beq_iff_eq] at hc
    exact ⟨hc.1.1.1.2.trans hx.2, hc.1.1.2.trans holdC⟩
  have hnewOld : ¬ x.isOld new := by
    intro hc
    have hgen := (hgen new hc).2
    subst hnew
    simp only at hgen
    omega
  have holdHeld : s.Holds h old := by
    rcases hold with hold | rfl
    · exact ⟨hold, (hgen old hisOld).1⟩
    · exact absurd hisOld hnewOld
  have hisOld_iff : ∀ c, s.Holds h c → (x.isOld c ↔ c.generation = C) := fun c hc =>
    ⟨fun hc' => (hgen c hc').2, fun hc' =>
      hs.generation_inj old c holdHeld hc ((hgen old hisOld).2.trans hc'.symm) ▸ hisOld⟩
  refine ⟨hphase, r, new, _, hr, hnew, rfl, fun c hc => hver c hc.1, hhosts, ?_, ?_⟩
  · intro c'
    constructor
    · rintro ⟨hc', hh⟩
      obtain ⟨c, hc | rfl, rfl⟩ := (hcred c').mp hc'
      · have hheld : s.Holds h c := ⟨hc, by split at hh <;> exact hh⟩
        exact .inr ⟨c, hheld, by by_cases hC : c.generation = C <;> simp [hisOld_iff c hheld, hC]⟩
      · exact .inl (by simp [hnewOld])
    · rintro (rfl | ⟨c, hc, rfl⟩)
      · exact ⟨(hcred _).mpr ⟨_, .inr rfl, by simp [hnewOld]⟩, by simp [hnew]⟩
      · refine ⟨(hcred _).mpr ⟨c, .inl hc.1, ?_⟩, hc.2⟩
        by_cases hC : c.generation = C <;> simp [hisOld_iff c hc, hC]
  · intro y
    constructor
    · rintro ⟨hy, hh⟩
      obtain ⟨z, hz, rfl⟩ := (hrot y).mp hy
      by_cases hid : z.id = x.id
      · exact .inl (by simp [Table.eq_of_key hz hx.1 hid])
      · simp only [beq_iff_eq, hid] at hh ⊢
        exact .inr ⟨⟨hz, hh⟩, fun heq => hid (heq ▸ rfl)⟩
    · rintro (rfl | ⟨hy, hne⟩)
      · exact ⟨(hrot _).mpr ⟨x, hx.1, by simp⟩, hx.2⟩
      · have hid : y.id ≠ x.id := fun hid => hne (Table.eq_of_key hy.1 hx.1 hid)
        exact ⟨(hrot _).mpr ⟨y, hy.1, by simp [hid]⟩, hy.2⟩

/-- **A first exchange keeps the current generation**: the new credential waits beside it. -/
theorem Rotates.exchangeNew (hs : s.Rotates h C₀ C) (hx : s.Rotating h x)
    (hex : s.exchangeNew x verifier credentialId now = .ok (receipt, t)) : t.Rotates h C₀ C := by
  obtain ⟨hphase, r, new, new', hr, hnew, hnew', hver, hhosts, hcred, hrot⟩ :=
    hs.exchangeNew_exchanges hx hex
  obtain ⟨-, hnewer⟩ := hs.requested x hx hphase
  obtain ⟨cur, hcur, hcurC⟩ := hs.current
  have hCnext : C < x.nextGeneration := hcurC ▸ hnewer cur hcur
  have hopen : x.isOpen := (Rotation.isOpen_iff (hs.phased x hx)).mpr (.inl hphase)
  have hphased' : new'.isPhased := by
    have := hs.phased x hx
    simp only [Rotation.isPhased, hphase, Bool.and_eq_true] at this
    simp [hnew', Rotation.isPhased, this]
  have hphase' : new'.phase = .exchanged := by rw [hnew']
  -- no rotation but the exchanged one is open
  have hclosed : ∀ y, s.Rotating h y → y ≠ x →
      y.phase ≠ .requested ∧ y.phase ≠ .exchanged := by
    intro y hy hne
    have hnot : ¬ y.isOpen := fun hoy => hne (hs.open_inj y x hy hx hoy hopen)
    rw [Rotation.isOpen_iff (hs.phased y hy)] at hnot
    exact not_or.mp hnot
  refine
    { host := ?_, le_current := hs.le_current, generation_inj := ?_, verifier_inj := ?_
      current := ?_, revoked_iff := ?_, limited := ?_, phased := ?_, open_inj := ?_
      requested := ?_, exchanged := ?_, acknowledged := ?_, reached := ?_ }
  · obtain ⟨r', hr', hmay, hC, hepoch⟩ := hs.host
    cases hr.symm.trans hr'
    refine ⟨r, hhosts ▸ hr, hmay, hC, fun c' hc' hge => ?_⟩
    rcases (hcred c').mp hc' with rfl | ⟨c, hc, rfl⟩
    · rw [hnew]
    · exact hepoch c hc hge
  · intro c₁ c₂ h₁ h₂ hgen
    rcases (hcred c₁).mp h₁ with rfl | ⟨d₁, hd₁, rfl⟩ <;>
      rcases (hcred c₂).mp h₂ with rfl | ⟨d₂, hd₂, rfl⟩
    · rfl
    · have := hnewer d₂ hd₂
      simp only [hnew] at hgen
      omega
    · have := hnewer d₁ hd₁
      simp only [hnew] at hgen
      omega
    · rw [hs.generation_inj d₁ d₂ hd₁ hd₂ hgen]
  · intro c₁ c₂ h₁ h₂ heq
    rcases (hcred c₁).mp h₁ with rfl | ⟨d₁, hd₁, rfl⟩ <;>
      rcases (hcred c₂).mp h₂ with rfl | ⟨d₂, hd₂, rfl⟩
    · rfl
    · exact absurd (by simpa [hnew] using heq.symm) (hver d₂ hd₂)
    · exact absurd (by simpa [hnew] using heq) (hver d₁ hd₁)
    · rw [hs.verifier_inj d₁ d₂ hd₁ hd₂ heq]
  · exact ⟨_, (hcred _).mpr (.inr ⟨cur, hcur, rfl⟩), hcurC⟩
  · intro c' hc'
    rcases (hcred c').mp hc' with rfl | ⟨c, hc, rfl⟩
    · simp only [hnew, Option.isSome_none, Bool.false_eq_true, false_iff]
      omega
    · exact hs.revoked_iff c hc
  · intro c' u hc' hle hu
    rcases (hcred c').mp hc' with rfl | ⟨c, hc, rfl⟩
    · simp [hnew] at hu
    · have hnone := hs.unlimited hx hphase hc hle
      by_cases hC : c.generation = C <;> simp_all
  · intro y hy
    rcases (hrot y).mp hy with rfl | ⟨hy, -⟩
    · exact hphased'
    · exact hs.phased y hy
  · have huniq : ∀ y, t.Rotating h y → y.isOpen → y = new' := by
      intro y hy hoy
      rcases (hrot y).mp hy with rfl | ⟨hy, hne⟩
      · rfl
      · exact absurd (hs.open_inj y x hy hx hoy hopen) hne
    exact fun y z hy hz hoy hoz => (huniq y hy hoy).trans (huniq z hz hoz).symm
  · intro y hy hp
    rcases (hrot y).mp hy with rfl | ⟨hy, hne⟩
    · rw [hphase'] at hp
      cases hp
    · exact absurd hp (hclosed y hy hne).1
  · intro y hy hp
    rcases (hrot y).mp hy with rfl | ⟨hy, hne⟩
    · refine ⟨by simpa [hnew'] using hCnext, fun c' hc' hle => ?_⟩
      rcases (hcred c').mp hc' with rfl | ⟨c, hc, rfl⟩
      · have : x.nextGeneration ≠ C := by omega
        simp [hnew, this]
      · simp only [hs.unlimited hx hphase hc hle]
    · exact absurd hp (hclosed y hy hne).2
  · intro y hy hp
    rcases (hrot y).mp hy with rfl | ⟨hy, -⟩
    · rw [hphase'] at hp
      cases hp
    · exact hs.acknowledged y hy hp
  · refine hs.reached.imp_right fun ⟨y, hy, hp, hnext⟩ => ?_
    have hne : y ≠ x := fun heq => by
      rw [heq, hphase] at hp
      cases hp
    exact ⟨y, (hrot y).mpr (.inr ⟨hy, hne⟩), hp, hnext⟩

theorem Rotates.exchangeNew_extends (hs : s.Rotates h C₀ C) (hx : s.Rotating h x)
    (hex : s.exchangeNew x verifier credentialId now = .ok (receipt, t)) : s.Extends t h := by
  obtain ⟨-, r, new, new', -, -, hnew', -, -, hcred, hrot⟩ := hs.exchangeNew_exchanges hx hex
  refine ⟨fun c hc => ⟨_, (hcred _).mpr (.inr ⟨c, hc, rfl⟩), rfl, rfl, rfl⟩, fun y hy => ?_⟩
  by_cases heq : y = x
  · exact ⟨new', (hrot _).mpr (.inl rfl), by simp [hnew', heq], by simp [hnew', heq]⟩
  · exact ⟨y, (hrot y).mpr (.inr ⟨hy, heq⟩), rfl, rfl⟩

/-! ## Acknowledging -/

/-- An acknowledgement repeats an earlier one, or revokes every older generation. -/
theorem acknowledgeRotation_ok {receipt : RotationAckReceipt}
    (hack : s.acknowledgeRotation auth operationId now = .ok (receipt, t)) :
    ∃ x ∈ s.rotations, x.id = operationId ∧ x.hostId = auth.hostId ∧
      x.nextGeneration = auth.generation ∧
      (x.acknowledgedAt.isSome ∧ t = s ∨
        x.phase = .exchanged ∧
        (∃ c ∈ s.credentials, c.hostId = auth.hostId ∧ c.generation = auth.generation) ∧
        (∀ k, t.hosts.find k = (s.hosts.find k).map fun r =>
          if r.id == auth.hostId then
            { r with currentCredentialGeneration := some auth.generation } else r) ∧
        (∀ y, y ∈ t.rotations ↔ ∃ z ∈ s.rotations, (if z.id == x.id then
          { z with phase := .acknowledged, acknowledgedAt := some now } else z) = y) ∧
        (∀ c' ∈ t.credentials, ∃ c ∈ s.credentials, c.Superseded auth c') ∧
        ∀ c ∈ s.credentials, ∃ c' ∈ t.credentials, c.Superseded auth c') := by
  obtain ⟨x, hx, hid, hhost, hnext, -, -, hrepeat | ⟨hphase, hnew, -, rfl⟩⟩ :=
    acknowledgeRotation_cases hack
  · exact ⟨x, hx, hid, hhost, hnext, .inl hrepeat⟩
  refine ⟨x, hx, hid, hhost, hnext, .inr ⟨hphase, hnew, ?_, ?_, ?_, ?_⟩⟩
  · intro k
    simp only [auditAndEvent]
    rw [Table.find_update]
  · intro y
    simp [auditAndEvent, Table.mem_update]
  · intro c' hc'
    simp only [auditAndEvent, Table.mem_update] at hc'
    obtain ⟨_, ⟨c, hc, rfl⟩, rfl⟩ := hc'
    refine ⟨c, hc, Credential.superseded_revoke ?_ ?_ ?_⟩ <;> split
    all_goals first | exact ⟨rfl, rfl, rfl, rfl, rfl⟩ | rfl
  · intro c hc
    simp only [auditAndEvent, Table.mem_update]
    refine ⟨_, ⟨_, ⟨c, hc, rfl⟩, rfl⟩, Credential.superseded_revoke ?_ ?_ ?_⟩ <;> split
    all_goals first | exact ⟨rfl, rfl, rfl, rfl, rfl⟩ | rfl

/-- **A first acknowledgement makes the next generation the current one.** -/
theorem Rotates.acknowledge (hs : s.Rotates h C₀ C) (hx : s.Rotating h x)
    (hphase : x.phase = .exchanged) (hhost : auth.hostId = h)
    (hnext : x.nextGeneration = auth.generation)
    (hnew : ∃ c ∈ s.credentials, c.hostId = auth.hostId ∧ c.generation = auth.generation)
    (hhosts : ∀ k, t.hosts.find k = (s.hosts.find k).map fun r =>
      if r.id == auth.hostId then
        { r with currentCredentialGeneration := some auth.generation } else r)
    (hrot : ∀ y, y ∈ t.rotations ↔ ∃ z ∈ s.rotations, (if z.id == x.id then
      { z with phase := .acknowledged, acknowledgedAt := some now } else z) = y)
    (hback : ∀ c' ∈ t.credentials, ∃ c ∈ s.credentials, c.Superseded auth c')
    (hforth : ∀ c ∈ s.credentials, ∃ c' ∈ t.credentials, c.Superseded auth c') :
    t.Rotates h C₀ auth.generation := by
  obtain ⟨hnewer, hunlimited⟩ := hs.exchanged x hx hphase
  have hopen : x.isOpen := (Rotation.isOpen_iff (hs.phased x hx)).mpr (.inr hphase)
  have hheld : ∀ c', t.Holds h c' → ∃ c, s.Holds h c ∧ c.Superseded auth c' := by
    intro c' hc'
    obtain ⟨c, hc, hsup⟩ := hback c' hc'.1
    exact ⟨c, ⟨hc, hsup.hostId ▸ hc'.2⟩, hsup⟩
  have hsame : ∀ c₁ c₂, t.Holds h c₁ → t.Holds h c₂ → (∀ d₁ d₂, s.Holds h d₁ → s.Holds h d₂ →
      d₁.Superseded auth c₁ → d₂.Superseded auth c₂ → d₁ = d₂) → c₁ = c₂ := by
    intro c₁ c₂ h₁ h₂ hsame
    obtain ⟨d₁, hd₁, hsup₁⟩ := hheld c₁ h₁
    obtain ⟨d₂, hd₂, hsup₂⟩ := hheld c₂ h₂
    have heq := hsame d₁ d₂ hd₁ hd₂ hsup₁ hsup₂
    exact Table.eq_of_key h₁.1 h₂.1 (hsup₁.id.trans (heq ▸ hsup₂.id.symm))
  have hrotating : ∀ y, t.Rotating h y →
      y = { x with phase := .acknowledged, acknowledgedAt := some now } ∨ s.Rotating h y ∧
        y.phase ≠ .requested ∧ y.phase ≠ .exchanged := by
    rintro y ⟨hy, hh⟩
    obtain ⟨z, hz, rfl⟩ := (hrot y).mp hy
    by_cases hid : z.id = x.id
    · exact .inl (by simp [Table.eq_of_key hz hx.1 hid])
    · simp only [beq_iff_eq, hid] at hh ⊢
      have hnot : ¬ z.isOpen := fun hoz => hid (hs.open_inj z x ⟨hz, hh⟩ hx hoz hopen ▸ rfl)
      rw [Rotation.isOpen_iff (hs.phased z ⟨hz, hh⟩)] at hnot
      exact .inr ⟨⟨hz, hh⟩, not_or.mp hnot⟩
  have hphased : ∀ y, t.Rotating h y → y.isPhased := by
    intro y hy
    rcases hrotating y hy with rfl | ⟨hy, -⟩
    · have := hs.phased x hx
      simp only [Rotation.isPhased, hphase, Bool.and_eq_true] at this
      simp [Rotation.isPhased, this]
    · exact hs.phased y hy
  have hclosed : ∀ y, t.Rotating h y → y.phase ≠ .requested ∧ y.phase ≠ .exchanged := by
    intro y hy
    rcases hrotating y hy with rfl | ⟨-, hne⟩
    · simp
    · exact hne
  refine
    { host := ?_, le_current := ?_, generation_inj := ?_, verifier_inj := ?_, current := ?_
      revoked_iff := ?_, limited := ?_, phased := hphased, open_inj := ?_, requested := ?_
      exchanged := ?_, acknowledged := ?_, reached := ?_ }
  · obtain ⟨r, hr, hmay, -, hepoch⟩ := hs.host
    have hid : r.id = auth.hostId := (Table.key_of_find hr).trans hhost.symm
    refine ⟨{ r with currentCredentialGeneration := some auth.generation }, ?_, hmay, rfl, ?_⟩
    · simp [hhosts, hr, hid]
    intro c' hc' hge
    obtain ⟨c, hc, hsup⟩ := hheld c' hc'
    exact hsup.hostEpoch.trans (hepoch c hc (hsup.generation ▸ hge))
  · have := hs.le_current
    omega
  · exact fun c₁ c₂ h₁ h₂ hgen => hsame c₁ c₂ h₁ h₂ fun d₁ d₂ hd₁ hd₂ h₁ h₂ =>
      hs.generation_inj d₁ d₂ hd₁ hd₂ (h₁.generation.symm.trans (hgen.trans h₂.generation))
  · exact fun c₁ c₂ h₁ h₂ hver => hsame c₁ c₂ h₁ h₂ fun d₁ d₂ hd₁ hd₂ h₁ h₂ =>
      hs.verifier_inj d₁ d₂ hd₁ hd₂ (h₁.verifier.symm.trans (hver.trans h₂.verifier))
  · obtain ⟨c, hc, hch, hcg⟩ := hnew
    obtain ⟨c', hc', hsup⟩ := hforth c hc
    exact ⟨c', ⟨hc', hsup.hostId.trans (hch.trans hhost)⟩, hsup.generation.trans hcg⟩
  · intro c' hc'
    obtain ⟨c, hc, hsup⟩ := hheld c' hc'
    rw [hsup.revokedAt, hs.revoked_iff c hc, hsup.generation, hc.2, hhost]
    simp only [true_and]
    omega
  · intro c' u hc' hle hu
    obtain ⟨c, hc, hsup⟩ := hheld c' hc'
    have hle' := hsup.generation ▸ hle
    have hnone := hunlimited c hc (by omega)
    rw [if_neg (by omega), ← hsup.overlapExpiresAt, hu] at hnone
    cases hnone
  · intro y z hy hz hoy
    rcases (Rotation.isOpen_iff (hphased y hy)).mp hoy with hp | hp
    · exact absurd hp (hclosed y hy).1
    · exact absurd hp (hclosed y hy).2
  · exact fun y hy hp => absurd hp (hclosed y hy).1
  · exact fun y hy hp => absurd hp (hclosed y hy).2
  · intro y hy hp
    rcases hrotating y hy with rfl | ⟨hy, -⟩
    · exact Nat.le_of_eq hnext
    · have := hs.acknowledged y hy hp
      omega
  · exact .inr ⟨_, ⟨(hrot _).mpr ⟨x, hx.1, if_pos (by simp)⟩, hx.2⟩, rfl, hnext⟩

/-! ## The transactions of a host -/

theorem Rotates.requestRotation (hs : s.Rotates h C₀ C) {isSystemAdmin : Bool} {user : UserId}
    {expected : Nat} {key : String} {operationId : RotationId} {receipt : RotationRequestReceipt}
    (hreq : s.requestRotation isSystemAdmin user h expected key operationId now
      = .ok (receipt, t)) : t.Rotates h C₀ C ∧ s.Extends t h := by
  rcases requestRotation_cases hreq with
    rfl | ⟨r, x, rotations, e, hr, hcur, hnone, hxh, hphase, hphased, hnext, hins, rfl⟩
  · exact ⟨hs, .refl _ _⟩
  obtain ⟨r', hr', -, hC, -⟩ := hs.host
  cases hr.symm.trans hr'
  have hs' : (s.revokeExpiredRotations h user now).Rotates h C₀ C := hs.revokeExpired
  have hgen : ∀ c, s.Holds h c → c.generation < x.nextGeneration := fun c hc =>
    hnext ▸ generation_lt_nextGeneration (s := s.revokeExpiredRotations h user now) hc
  have hrot := hs'.insertRotation hins hxh hphase hphased (hcur C hC).symm hgen hnone
  refine ⟨{ hrot with }, Extends.trans (t := s.revokeExpiredRotations h user now)
    .revokeExpired ⟨fun c hc => ⟨c, hc, rfl, rfl, rfl⟩, fun y hy => ?_⟩⟩
  exact ⟨y, ⟨(Table.mem_insert? hins).mpr (.inl hy.1), hy.2⟩, rfl, rfl⟩

theorem Rotates.exchangeRotation (hs : s.Rotates h C₀ C) {next : Secret} (hhost : auth.hostId = h)
    (hex : s.exchangeRotation H auth operationId next credentialId now = .ok (receipt, t)) :
    t.Rotates h C₀ C ∧ s.Extends t h := by
  obtain ⟨x, hx, hxh, rfl | hnew⟩ := exchangeRotation_cases hex
  · exact ⟨hs, .refl _ _⟩
  · have hrot : s.Rotating h x := ⟨hx, hxh.trans hhost⟩
    exact ⟨hs.exchangeNew hrot hnew, hs.exchangeNew_extends hrot hnew⟩

/-- An acknowledged generation is never past the current one, and its secret is on file. -/
theorem Rotates.acknowledgeRotation (hs : s.Rotates h C₀ C) {receipt : RotationAckReceipt}
    (hhost : auth.hostId = h) (hack : s.acknowledgeRotation auth operationId now = .ok (receipt, t)) :
    ∃ C', C ≤ C' ∧ t.Rotates h C₀ C' ∧ s.Extends t h ∧ auth.generation ≤ C' ∧
      ∃ x, s.Rotating h x ∧ x.id = operationId ∧ x.nextGeneration = auth.generation := by
  obtain ⟨x, hx, hid, hxh, hnext, ⟨hat, hst⟩ | ⟨hphase, hnew, hhosts, hrot, hback, hforth⟩⟩ :=
    acknowledgeRotation_ok hack
  · have hxr : s.Rotating h x := ⟨hx, hxh.trans hhost⟩
    have hphase : x.phase = .acknowledged := by
      have := hs.phased x hxr
      unfold Rotation.isPhased at this
      cases hp : x.phase <;> simp_all
    rw [hst]
    exact ⟨C, Nat.le_refl C, hs, .refl _ _, hnext ▸ hs.acknowledged x hxr hphase, x, hxr, hid, hnext⟩
  · have hxr : s.Rotating h x := ⟨hx, hxh.trans hhost⟩
    have hlt := (hs.exchanged x hxr hphase).1
    refine ⟨auth.generation, by omega,
      hs.acknowledge hxr hphase hhost hnext hnew hhosts hrot hback hforth, ⟨?_, ?_⟩,
      Nat.le_refl _, x, hxr, hid, hnext⟩
    · intro c hc
      obtain ⟨c', hc', hsup⟩ := hforth c hc.1
      exact ⟨c', ⟨hc', hsup.hostId.trans hc.2⟩, hsup.id, hsup.generation, hsup.verifier⟩
    · intro y hy
      refine ⟨_, ⟨(hrot _).mpr ⟨y, hy.1, rfl⟩, ?_⟩, ?_, ?_⟩ <;> split
      all_goals first | exact hy.2 | rfl

end Store

end Gridops.Fleet
