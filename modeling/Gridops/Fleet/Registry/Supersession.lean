import Gridops.Fleet.Registry.Statements

/-!
# Superseded credentials stay dead

Every statement of the registry is a sequence of moves of the fleet's key ring
(`Statement.moves`), so what the moves keep holds after every run: generations rise in the
order they were made, a host has one open rotation at most, and a generation that an
acknowledgement or a recovery has left behind is never accepted again.
-/

namespace Gridops.Fleet

open Gridops.Lib Relation

namespace KeyRing

abbrev Moves : KeyRing → KeyRing → Prop := ReflTransGen Move

variable {k l : KeyRing}

theorem Moves.of_eq (h : l = k) : k.Moves l := h ▸ .refl

theorem Moves.sound (h : k.Moves l) (hk : k.Sound) : l.Sound := by
  induction h with
  | refl => exact hk
  | tail _ hmove ih => exact hmove.sound ih

theorem Moves.grows (h : k.Moves l) : k.Grows l := by
  induction h with
  | refl => exact .of_eq rfl
  | tail _ hmove ih => exact ih.trans hmove.grows

theorem Grows.generations_prefix (h : k.Grows l) :
    k.credentials.rows.map (fun c => (c.id, c.hostId, c.generation)) <+:
      l.credentials.rows.map fun c => (c.id, c.hostId, c.generation) := by
  obtain ⟨old, hold, hages⟩ := h
  have hsame : ∀ {cs old : List Credential}, List.Forall₂ Credential.Ages cs old →
      cs.map (fun c => (c.id, c.hostId, c.generation))
        = old.map fun c => (c.id, c.hostId, c.generation) := by
    intro cs old hages
    induction hages with
    | nil => rfl
    | cons hage _ ih => simp only [List.map_cons, hage.id, hage.hostId, hage.generation, ih]
  rw [hsame hages]
  exact hold.map _

theorem Moves.fenced (h : k.Moves l) (hk : k.Sound) {host : HostId} {g : Nat}
    (hfenced : k.Fenced host g) : l.Fenced host g :=
  hfenced.grows h.grows (h.sound hk).ordered

end KeyRing

/-! ## Statements are moves -/

open KeyRing

namespace Registry

variable {H : Hashing} {r t : Registry} {e : Enrollment} {fresh : FreshHost}
  {receipt : EnrollmentReceipt} {now : Millis} {hostId : HostId}

theorem keys_of_identity (h : t.identity = r.identity) : t.keys = r.keys := by
  simp only [identity, Prod.mk.injEq] at h
  simp only [Store.keys, h]

theorem Statement.moves {single : Prop} (h : Statement now single r t) : r.keys.Moves t.keys := by
  cases h with
  | beside h => exact .of_eq (keys_of_identity (congrArg Prod.fst h))
  | work _ _ h => exact .of_eq (keys_of_identity h)
  | codes | grants | session | openSession => exact .refl
  | keys h => exact .single h
  | enroll profiles hhosts hc hver hins =>
    obtain ⟨hnew, hrows⟩ := Table.insert?_some.mp hhosts
    cases hc
    have hmove := Move.enroll (k := r.keys) hnew hver hins
    refine .single ?_
    simpa only [Store.keys, hrows, List.map_append]
  | sustain | withdraw | retire | approve | inventory | endSession =>
    refine .of_eq ?_
    simp only [Store.keys, updateHost, Table.map_key_update]
  | grantAuthority =>
    refine .of_eq ?_
    simp only [Store.keys, Registry.grantAuthority]
    split
    · rfl
    · simp only [Table.map_key_update]

theorem enroll_fenced (h : r.enroll H e fresh now = .ok (receipt, t)) (hr : r.keys.Sound) :
    t.keys.Fenced receipt.hostId receipt.credentialGeneration := by
  obtain ⟨hosts, -, credentials, -, rfl, hhosts, hcred, rfl⟩ := enroll_cases h
  obtain ⟨-, hins⟩ := Store.insertCredential_some hcred
  obtain ⟨hnew, -⟩ := Table.insert?_some.mp hhosts
  refine ⟨fun c hc hhost hlt => ?_, _, (Table.mem_insert? hins).mpr (.inr rfl), rfl, rfl⟩
  rcases (Table.mem_insert? hins).mp hc with hc | rfl
  · have howned : c.hostId ∈ r.store.hosts.rows.map (·.id) := hr.owned c hc
    rw [hhost] at howned
    exact absurd howned hnew
  · exact absurd hlt (lt_irrefl _)

theorem recover_fenced {epoch revision : Nat}
    (h : r.recover H e hostId epoch revision fresh now = .ok (receipt, t)) :
    t.keys.Fenced receipt.hostId receipt.credentialGeneration := by
  obtain ⟨x, p, credentials, -, -, -, rfl, -, -, rfl, hcred, rfl⟩ := recover_cases h
  obtain ⟨-, hins⟩ := Store.insertCredential_some hcred
  refine ⟨fun c hc hhost hlt => ?_, _, (Table.mem_insert? hins).mpr (.inr rfl), rfl, rfl⟩
  rcases (Table.mem_insert? hins).mp hc with hc | rfl
  · exact (Statements.startOver_credential r e (x.epoch + 1)
      (r.store.nextGeneration hostId) now hc hhost).1
  · exact absurd hlt (lt_irrefl _)

end Registry

theorem Store.acknowledgeRotation_fenced {s t : Store} {auth : AuthenticatedHost} {now : Millis}
    {operationId : RotationId} {receipt : RotationAckReceipt}
    (h : s.acknowledgeRotation auth operationId now = .ok (receipt, t)) (hs : s.keys.Sound) :
    t.keys.Fenced receipt.hostId receipt.generation := by
  obtain ⟨x, hx, -, hhost, hnext, hrhost, hrgen, ⟨hat, rfl⟩ | ⟨-, hcurrent, -, rfl⟩⟩ :=
    acknowledgeRotation_cases h
  · have hphase : x.phase = .acknowledged := by
      have hphased := hs.phased x hx
      unfold Rotation.isPhased at hphased
      cases hp : x.phase <;> simp_all
    rw [hrhost, hrgen, ← hhost, ← hnext]
    exact hs.acknowledged x hx hphase
  · rw [hrhost, hrgen]
    exact Registry.Statements.fenced_acknowledge _ _ auth now hcurrent

namespace RegistryService

variable {H : Hashing} {digest : HandshakeRequest → String} {s : RegistryService}
  {a : RegistryCall} {t : Registry}

theorem moves_of_step {t : RegistryService} (h : s.step H digest a = some t) :
    s.db.keys.Moves t.db.keys :=
  rel_of_step (R := fun r t => r.keys.Moves t.keys)
    (fun _ _ h => .of_eq (Registry.keys_of_identity h)) (fun _ _ _ => .trans)
    (fun _ _ => Registry.Statement.moves) h

theorem initial_sound (control : Option ControlPlane) (now : Millis) :
    (initial control now).db.keys.Sound where
  ordered := .nil
  verifier_inj c hc := by cases hc
  owned c hc := by cases hc
  rotated x hx := by cases hx
  phased x hx := by cases hx
  open_inj x hx := by cases hx
  reserved x hx := by cases hx
  acknowledged x hx := by cases hx

theorem run_moves {as : List RegistryCall} {t : RegistryService}
    (hrun : (registryService H digest).Run s as t) : s.db.keys.Moves t.db.keys :=
  hrun.rel (I := fun _ => True) (R := fun s t => s.db.keys.Moves t.db.keys)
    (fun _ => .refl) (fun _ _ _ => .trans) (fun _ _ _ _ _ _ => trivial)
    (fun _ _ _ _ hstep _ => moves_of_step hstep) trivial

/-- The host and the generation that a call acknowledges or issues. -/
def supersedes (H : Hashing) (s : RegistryService) : RegistryCall → Option (HostId × Nat)
  | .acknowledgeRotation auth operationId =>
    (s.db.acknowledgeRotation auth operationId s.now).toOption.map fun answer =>
      (answer.1.hostId, answer.1.generation)
  | .consumeEnrollment d code fresh =>
    (s.db.consumeEnrollment H d code fresh s.now).toOption.map fun answer =>
      (answer.1.hostId, answer.1.credentialGeneration)
  | _ => none

variable {u v : RegistryService}

theorem fenced_of_supersedes {host : HostId} {g : Nat} (hu : u.db.keys.Sound)
    (hsup : u.supersedes H a = some (host, g)) (hstep : u.step H digest a = some v) :
    v.db.keys.Fenced host g := by
  obtain ⟨db, hdb, rfl⟩ := Option.map_eq_some_iff.mp hstep
  cases a with
  | acknowledgeRotation auth operationId =>
    obtain ⟨⟨receipt, t⟩, hok, hpair⟩ := Option.map_eq_some_iff.mp hsup
    have hack := ok_of_toOption hok
    cases hpair
    have hdb' : db = t := by simpa [call, hack, Except.toOption] using hdb.symm
    obtain ⟨⟨receipt', store⟩, hstore, hrest⟩ := bind_eq_ok hack
    have hfenced := Store.acknowledgeRotation_fenced hstore hu
    dsimp only at hrest
    rw [hdb']
    split at hrest <;> cases hrest <;> exact hfenced
  | consumeEnrollment d code fresh =>
    obtain ⟨⟨receipt, t⟩, hok, hpair⟩ := Option.map_eq_some_iff.mp hsup
    have hconsume := ok_of_toOption hok
    cases hpair
    have hdb' : db = t := by simpa [call, hconsume, Except.toOption] using hdb.symm
    rw [hdb']
    obtain ⟨e, -, -, -, -, -, ⟨-, henroll⟩ | ⟨hostId, epoch, revision, -, hrecover⟩⟩ :=
      Registry.consumeEnrollment_cases hconsume
    · exact Registry.enroll_fenced henroll hu
    · exact Registry.recover_fenced hrecover
  | _ => cases hsup

theorem not_revoked {c : Credential} {now : Millis} (h : c.isLive now) : c.revokedAt = none := by
  simp only [Credential.isLive, Bool.and_eq_true, Option.isNone_iff_eq_none] at h
  exact h.1

/-- **Superseded credentials stay dead**, and generations rise in the order they were created. -/
theorem superseded_stay_dead {control : Option ControlPlane} {now₀ : Millis}
    {as : List RegistryCall} (hrun : (registryService H digest).Run (.initial control now₀) as s) :
    (s.db.store.credentials.rows.Pairwise fun c c' =>
      c.hostId = c'.hostId → c.generation < c'.generation) ∧
    (∀ bs cs u, as = bs ++ cs → (registryService H digest).Run (.initial control now₀) bs u →
      u.db.store.credentials.rows.map (fun c => (c.id, c.hostId, c.generation)) <+:
        s.db.store.credentials.rows.map fun c => (c.id, c.hostId, c.generation)) ∧
    (∀ x ∈ s.db.store.rotations, ∀ y ∈ s.db.store.rotations, x.hostId = y.hostId →
      x.isOpen → y.isOpen → x = y) ∧
    (∀ host secret now auth, s.db.store.authenticate H host secret now = .ok auth →
      ∃ h c, s.db.store.hosts.find host = some h ∧ c ∈ s.db.store.credentials ∧
        c.hostId = host ∧ c.revokedAt = none ∧ c.hostEpoch = h.epoch ∧
        c.generation = auth.generation ∧
        ∀ c' ∈ s.db.store.credentials, c'.verifier = H.secret secret ↔ c' = c) ∧
    ∀ bs a cs u, as = bs ++ a :: cs → (registryService H digest).Run (.initial control now₀) bs u →
      ∀ host g, u.supersedes H a = some (host, g) →
        ∀ secret now auth, s.db.store.authenticate H host secret now = .ok auth →
          g ≤ auth.generation := by
  have hinitial := initial_sound control now₀
  have hs : s.db.keys.Sound := (run_moves hrun).sound hinitial
  refine ⟨hs.ordered, ?_, hs.open_inj, ?_, ?_⟩
  · rintro bs cs u rfl hbs
    have hcs := hrun.rest hbs
    exact (run_moves hcs).grows.generations_prefix
  · intro host secret now auth hauth
    obtain ⟨-, h, c, hh, hc, hhost, hlive, hver, -, hepoch, rfl⟩ := Store.authenticate_cases hauth
    refine ⟨h, c, hh, hc, hhost, not_revoked hlive, hepoch, rfl,
      fun c' hc' => ⟨fun hver' => ?_, ?_⟩⟩
    · exact hs.verifier_inj c' hc' c hc (hver'.trans hver.symm)
    · rintro rfl
      exact hver
  · rintro bs a cs u rfl hbs host g hsup secret now auth hauth
    have hu := (run_moves hbs).sound hinitial
    cases hrun.rest hbs with
    | cons _ hstep hrest =>
      have hfenced := fenced_of_supersedes hu hsup hstep
      have hv := (moves_of_step hstep).sound hu
      obtain ⟨-, h, c, -, hc, hhost, hlive, -, -, -, rfl⟩ := Store.authenticate_cases hauth
      by_contra hlt
      have hdead := ((run_moves hrest).fenced hv hfenced).older c hc hhost (not_le.mp hlt)
      rw [not_revoked hlive] at hdead
      cases hdead

end RegistryService

namespace Sample

def rotateCalls : List RegistryCall :=
  enrollCalls ++ [.requestRotation directory 1 1 1 "rotate" 5,
    .exchangeRotation ⟨1, 1, 1, 1⟩ 5 secondSecret 2]

end Sample

open RegistryService in
theorem superseded_stay_dead_sample : ∃ s auth,
    (registryService Sample.hashing fun _ => "").exec (.initial none 0)
      (Sample.rotateCalls ++ [.acknowledgeRotation ⟨1, 2, 2, 1⟩ 5]) = some s ∧
    s.db.store.authenticate Sample.hashing 1 Sample.secondSecret 0 = .ok auth ∧
    2 ≤ auth.generation := by
  obtain ⟨s, u, auth, hexec, hfirst, hsup, hauth⟩ : ∃ s u auth,
      (registryService Sample.hashing fun _ => "").exec (.initial none 0)
        (Sample.rotateCalls ++ [.acknowledgeRotation ⟨1, 2, 2, 1⟩ 5]) = some s ∧
      (registryService Sample.hashing fun _ => "").exec (.initial none 0) Sample.rotateCalls
        = some u ∧
      u.supersedes Sample.hashing (.acknowledgeRotation ⟨1, 2, 2, 1⟩ 5) = some (1, 2) ∧
      s.db.store.authenticate Sample.hashing 1 Sample.secondSecret 0 = .ok auth :=
    ⟨_, _, _, rfl, rfl, rfl, rfl⟩
  have hall := superseded_stay_dead (Machine.run_iff_exec.mpr hexec)
  exact ⟨s, auth, hexec, hauth, hall.2.2.2.2 _ _ _ u rfl (Machine.run_iff_exec.mpr hfirst) 1 2 hsup
    _ _ _ hauth⟩

end Gridops.Fleet
