import Gridops.Fleet.Registry.Generations

/-!
# Key rings

The credentials and rotations of the whole fleet, and the seven moves of their life.

Every move leaves a sound ring sound (`Move.sound`) and only appends to the credentials there are
(`Move.grows`). A generation below which everything is revoked is therefore fenced for good
(`Fenced.grows`).
-/

namespace Gridops.Fleet

open Gridops.Lib

/-- What may still happen to a credential: it keeps its identity, and a revocation. -/
structure Credential.Ages (c c' : Credential) : Prop extends c.Keeps c' where
  revokedAt : c.revokedAt.isSome → c'.revokedAt.isSome

theorem Credential.Ages.refl (c : Credential) : c.Ages c := ⟨⟨rfl, rfl, rfl, rfl, rfl⟩, fun h => h⟩

theorem Credential.Ages.trans {c c' c'' : Credential} (h₁ : c.Ages c') (h₂ : c'.Ages c'') :
    c.Ages c'' where
  id := h₂.id.trans h₁.id
  hostId := h₂.hostId.trans h₁.hostId
  hostEpoch := h₂.hostEpoch.trans h₁.hostEpoch
  generation := h₂.generation.trans h₁.generation
  verifier := h₂.verifier.trans h₁.verifier
  revokedAt h := h₂.revokedAt (h₁.revokedAt h)

structure KeyRing where
  hosts : List HostId
  credentials : Table Credential.id
  rotations : Table Rotation.id

namespace KeyRing

/-- Host `h` has a generation `g`, and every older one is revoked. -/
structure Fenced (k : KeyRing) (h : HostId) (g : Nat) : Prop where
  older : ∀ c ∈ k.credentials, c.hostId = h → c.generation < g → c.revokedAt.isSome
  current : ∃ c ∈ k.credentials, c.hostId = h ∧ c.generation = g

structure Sound (k : KeyRing) : Prop where
  ordered : k.credentials.rows.Pairwise fun c c' =>
    c.hostId = c'.hostId → c.generation < c'.generation
  verifier_inj : ∀ c ∈ k.credentials, ∀ c' ∈ k.credentials, c.verifier = c'.verifier → c = c'
  owned : ∀ c ∈ k.credentials, c.hostId ∈ k.hosts
  rotated : ∀ x ∈ k.rotations, x.hostId ∈ k.hosts
  phased : ∀ x ∈ k.rotations, x.isPhased
  open_inj : ∀ x ∈ k.rotations, ∀ y ∈ k.rotations, x.hostId = y.hostId →
    x.isOpen → y.isOpen → x = y
  reserved : ∀ x ∈ k.rotations, x.phase = .requested →
    ∀ c ∈ k.credentials, c.hostId = x.hostId → c.generation < x.nextGeneration
  acknowledged : ∀ x ∈ k.rotations, x.phase = .acknowledged → k.Fenced x.hostId x.nextGeneration

def exchanged (verifier : Verifier) (now overlap : Millis) (x : Rotation) : Rotation :=
  { x with
    phase := .exchanged, proposedVerifier := some verifier, exchangedAt := some now
    overlapExpiresAt := some overlap }

theorem exchanged_id (verifier : Verifier) (now overlap : Millis) (x : Rotation) :
    (exchanged verifier now overlap x).id = x.id := rfl

inductive Move : KeyRing → KeyRing → Prop
  | age {k : KeyRing} {p : Credential → Bool} {f : Credential → Credential}
      (hf : ∀ c, (f c).id = c.id) (h : ∀ c, p c → c.Ages (f c)) :
      Move k { k with credentials := k.credentials.update p f hf }
  | enroll {k : KeyRing} {c : Credential} {credentials : Table Credential.id}
      (hnew : c.hostId ∉ k.hosts) (hver : ∀ c' ∈ k.credentials, c'.verifier ≠ c.verifier)
      (hins : k.credentials.insert? c = some credentials) :
      Move k { k with hosts := k.hosts ++ [c.hostId], credentials }
  | recover {k : KeyRing} {c : Credential} {credentials : Table Credential.id}
      (hhost : c.hostId ∈ k.hosts) (hver : ∀ c' ∈ k.credentials, c'.verifier ≠ c.verifier)
      (hgen : ∀ c' ∈ k.credentials, c'.hostId = c.hostId → c'.generation < c.generation)
      (hclosed : ∀ x ∈ k.rotations, x.hostId = c.hostId → x.phase ≠ .requested)
      (hins : k.credentials.insert? c = some credentials) : Move k { k with credentials }
  | close {k : KeyRing} {p : Rotation → Bool} {now : Millis}
      (hp : ∀ x, p x → x.phase = .requested ∨ x.phase = .exchanged) :
      Move k { k with
        rotations := k.rotations.update p
          (fun x => { x with phase := .revoked, revokedAt := some now }) fun _ => rfl }
  | request {k : KeyRing} {x : Rotation} {rotations : Table Rotation.id}
      (hhost : x.hostId ∈ k.hosts) (hphase : x.phase = .requested) (hphased : x.isPhased)
      (hclosed : ∀ y ∈ k.rotations, y.hostId = x.hostId → ¬ y.isOpen)
      (hnext : ∀ c ∈ k.credentials, c.hostId = x.hostId → c.generation < x.nextGeneration)
      (hins : k.rotations.insert? x = some rotations) : Move k { k with rotations }
  | exchange {k : KeyRing} {x : Rotation} {c : Credential} {credentials : Table Credential.id}
      (verifier : Verifier) (now overlap : Millis) (hx : x ∈ k.rotations)
      (hphase : x.phase = .requested) (hhost : c.hostId = x.hostId)
      (hgen : c.generation = x.nextGeneration)
      (hver : ∀ c' ∈ k.credentials, c'.verifier ≠ c.verifier)
      (hins : k.credentials.insert? c = some credentials) :
      Move k { k with
        credentials
        rotations := k.rotations.update (·.id == x.id) (exchanged verifier now overlap)
          (exchanged_id verifier now overlap) }
  | acknowledge {k : KeyRing} {x : Rotation} {now : Millis} (hx : x ∈ k.rotations)
      (hphase : x.phase = .exchanged) (hfenced : k.Fenced x.hostId x.nextGeneration) :
      Move k { k with
        rotations := k.rotations.update (·.id == x.id)
          (fun x => { x with phase := .acknowledged, acknowledgedAt := some now }) fun _ => rfl }

/-! ## Credentials are only appended -/

/-- The credentials there were, each as it aged, come first. -/
def Grows (k l : KeyRing) : Prop :=
  ∃ old, old <+: l.credentials.rows ∧ List.Forall₂ Credential.Ages k.credentials.rows old

variable {k l m : KeyRing} {h : HostId} {g : Nat}

theorem Grows.of_forall₂
    (h : List.Forall₂ Credential.Ages k.credentials.rows l.credentials.rows) : k.Grows l :=
  ⟨_, List.prefix_refl _, h⟩

theorem Grows.of_eq (h : l.credentials = k.credentials) : k.Grows l :=
  .of_forall₂ (h ▸ List.forall₂_same.mpr fun c _ => .refl c)

variable {c : Credential} {x : Rotation} {now : Millis}

theorem Grows.of_insert (h : k.credentials.insert? c = some l.credentials) :
    k.Grows l :=
  ⟨_, ⟨[c], (Table.insert?_some.mp h).2.symm⟩, List.forall₂_same.mpr fun c _ => .refl c⟩

theorem Grows.trans (h₁ : k.Grows l) (h₂ : l.Grows m) : k.Grows m := by
  obtain ⟨old, hold, hages⟩ := h₁
  obtain ⟨old', hold', hages'⟩ := h₂
  obtain ⟨old'', hold'', hages''⟩ := forall₂_prefix hages' hold
  exact ⟨old'', hold''.trans hold', forall₂_trans (fun _ _ _ => .trans) hages hages''⟩

theorem Move.grows (h : Move k l) : k.Grows l := by
  cases h with
  | age hf h => exact .of_forall₂ (Table.forall₂_update hf .refl h)
  | enroll _ _ hins => exact .of_insert hins
  | recover _ _ _ _ hins => exact .of_insert hins
  | close _ => exact .of_eq rfl
  | request _ _ _ _ _ _ => exact .of_eq rfl
  | exchange _ _ _ _ _ _ _ _ hins => exact .of_insert hins
  | acknowledge _ _ _ => exact .of_eq rfl

/-- **A fence is for good.** A credential that is new comes after the fenced generation. -/
theorem Fenced.grows (hk : k.Fenced h g) (hgrows : k.Grows l)
    (hordered : l.credentials.rows.Pairwise fun c c' =>
      c.hostId = c'.hostId → c.generation < c'.generation) : l.Fenced h g := by
  obtain ⟨old, ⟨new, hnew⟩, hages⟩ := hgrows
  obtain ⟨c₀, hc₀, hhost₀, hgen₀⟩ := hk.current
  obtain ⟨c₁, hc₁, hage₁⟩ := forall₂_mem_left hages hc₀
  have hmem : ∀ c, c ∈ l.credentials ↔ c ∈ old ∨ c ∈ new := by
    intro c
    rw [← Table.mem_rows, ← hnew, List.mem_append]
  refine ⟨fun c hc hhost hlt => ?_, c₁, (hmem c₁).mpr (.inl hc₁), hage₁.hostId.trans hhost₀,
    hage₁.generation.trans hgen₀⟩
  rcases (hmem c).mp hc with hc | hc
  · obtain ⟨c', hc', hage⟩ := forall₂_mem_right hages hc
    exact hage.revokedAt (hk.older c' hc' (hage.hostId ▸ hhost) (hage.generation ▸ hlt))
  · rw [← hnew, List.pairwise_append] at hordered
    have := hordered.2.2 c₁ hc₁ c hc (by rw [hage₁.hostId, hhost₀, hhost])
    rw [hage₁.generation] at this
    omega

/-! ## Sound rings stay sound -/

theorem Sound.age (hk : k.Sound) {p : Credential → Bool} {f : Credential → Credential}
    (hf : ∀ c, (f c).id = c.id) (h : ∀ c, p c → c.Ages (f c)) :
    Sound { k with credentials := k.credentials.update p f hf } := by
  have hages : ∀ c : Credential, c.Ages (if p c then f c else c) := by
    intro c
    split
    · next hp => exact h c hp
    · exact .refl c
  have hordered : (k.credentials.update p f hf).rows.Pairwise fun c c' =>
      c.hostId = c'.hostId → c.generation < c'.generation := by
    refine List.pairwise_map.mpr (hk.ordered.imp fun {c c'} hlt => ?_)
    rw [(hages c).hostId, (hages c').hostId, (hages c).generation, (hages c').generation]
    exact hlt
  refine { ordered := hordered, verifier_inj := ?_, owned := ?_, rotated := hk.rotated
           phased := hk.phased, open_inj := hk.open_inj, reserved := ?_, acknowledged := ?_ }
  · simp only [Table.forall_mem_update]
    intro c hc c' hc' heq
    rw [(hages c).verifier, (hages c').verifier] at heq
    rw [hk.verifier_inj c hc c' hc' heq]
  · simp only [Table.forall_mem_update]
    intro c hc
    rw [(hages c).hostId]
    exact hk.owned c hc
  · simp only [Table.forall_mem_update]
    intro x hx hphase c hc
    rw [(hages c).hostId, (hages c).generation]
    exact hk.reserved x hx hphase c hc
  · intro x hx hphase
    exact (hk.acknowledged x hx hphase).grows (.of_forall₂ (Table.forall₂_update hf .refl h))
      hordered

theorem Sound.addHost (hk : k.Sound) (h : HostId) : Sound { k with hosts := k.hosts ++ [h] } :=
  { hk with
    owned := fun c hc => List.mem_append_left _ (hk.owned c hc)
    rotated := fun x hx => List.mem_append_left _ (hk.rotated x hx)
    acknowledged := fun x hx hphase =>
      (hk.acknowledged x hx hphase).grows (.of_eq rfl) hk.ordered }

theorem Sound.insert (hk : k.Sound) {credentials : Table Credential.id} (hhost : c.hostId ∈ k.hosts)
    (hver : ∀ c' ∈ k.credentials, c'.verifier ≠ c.verifier)
    (hgen : ∀ c' ∈ k.credentials, c'.hostId = c.hostId → c'.generation < c.generation)
    (hclosed : ∀ x ∈ k.rotations, x.hostId = c.hostId → x.phase ≠ .requested)
    (hins : k.credentials.insert? c = some credentials) : Sound { k with credentials } := by
  have hordered : credentials.rows.Pairwise fun c c' =>
      c.hostId = c'.hostId → c.generation < c'.generation := by
    rw [(Table.insert?_some.mp hins).2, List.pairwise_append]
    refine ⟨hk.ordered, List.pairwise_singleton _ _, fun c' hc' d hd => ?_⟩
    rw [List.mem_singleton.mp hd]
    exact hgen c' hc'
  refine { ordered := hordered, verifier_inj := ?_, owned := ?_, rotated := hk.rotated
           phased := hk.phased, open_inj := hk.open_inj, reserved := ?_, acknowledged := ?_ }
  · intro d hd d' hd' heq
    rcases (Table.mem_insert? hins).mp hd with hd | rfl <;>
      rcases (Table.mem_insert? hins).mp hd' with hd' | rfl
    · exact hk.verifier_inj d hd d' hd' heq
    · exact absurd heq (hver d hd)
    · exact absurd heq.symm (hver d' hd')
    · rfl
  · intro d hd
    rcases (Table.mem_insert? hins).mp hd with hd | rfl
    · exact hk.owned d hd
    · exact hhost
  · intro x hx hphase d hd hd'
    rcases (Table.mem_insert? hins).mp hd with hd | rfl
    · exact hk.reserved x hx hphase d hd hd'
    · exact absurd hphase (hclosed x hx hd'.symm)
  · intro x hx hphase
    exact (hk.acknowledged x hx hphase).grows (.of_insert hins) hordered

/-- A rotation moves on: nothing is newly reserved, and what is newly acknowledged is fenced. -/
theorem Sound.advance (hk : k.Sound) {p : Rotation → Bool} {f : Rotation → Rotation}
    (hf : ∀ x, (f x).id = x.id) (hhost : ∀ x, (f x).hostId = x.hostId)
    (hphased : ∀ x ∈ k.rotations, p x → (f x).isPhased)
    (hopen : ∀ x ∈ k.rotations, p x → (f x).isOpen → x.isOpen)
    (hrequested : ∀ x ∈ k.rotations, p x → (f x).phase ≠ .requested)
    (hack : ∀ x ∈ k.rotations, p x → (f x).phase = .acknowledged →
      k.Fenced x.hostId (f x).nextGeneration) :
    Sound { k with rotations := k.rotations.update p f hf } := by
  have hhost' : ∀ x, (if p x then f x else x).hostId = x.hostId := by
    intro x
    split
    · exact hhost x
    · rfl
  have hopen' : ∀ x ∈ k.rotations, (if p x then f x else x).isOpen → x.isOpen := by
    intro x hx
    split
    · next hp => exact hopen x hx hp
    · exact id
  refine { hk with rotated := ?_, phased := ?_, open_inj := ?_, reserved := ?_, acknowledged := ?_ }
  · simp only [Table.forall_mem_update, hhost']
    exact hk.rotated
  · simp only [Table.forall_mem_update]
    intro x hx
    split
    · next hp => exact hphased x hx hp
    · exact hk.phased x hx
  · simp only [Table.forall_mem_update, hhost']
    intro x hx y hy hxy hox hoy
    rw [hk.open_inj x hx y hy hxy (hopen' x hx hox) (hopen' y hy hoy)]
  · simp only [Table.forall_mem_update]
    intro x hx
    split
    · next hp => exact fun hphase => absurd hphase (hrequested x hx hp)
    · exact hk.reserved x hx
  · simp only [Table.forall_mem_update, hhost']
    intro x hx
    split
    · next hp => exact fun hphase => ⟨(hack x hx hp hphase).older, (hack x hx hp hphase).current⟩
    · exact fun hphase =>
        ⟨(hk.acknowledged x hx hphase).older, (hk.acknowledged x hx hphase).current⟩

theorem Sound.request (hk : k.Sound) {rotations : Table Rotation.id} (hhost : x.hostId ∈ k.hosts)
    (hphase : x.phase = .requested) (hphased : x.isPhased)
    (hclosed : ∀ y ∈ k.rotations, y.hostId = x.hostId → ¬ y.isOpen)
    (hnext : ∀ c ∈ k.credentials, c.hostId = x.hostId → c.generation < x.nextGeneration)
    (hins : k.rotations.insert? x = some rotations) : Sound { k with rotations } := by
  refine { hk with rotated := ?_, phased := ?_, open_inj := ?_, reserved := ?_, acknowledged := ?_ }
  · intro y hy
    rcases (Table.mem_insert? hins).mp hy with hy | rfl
    · exact hk.rotated y hy
    · exact hhost
  · intro y hy
    rcases (Table.mem_insert? hins).mp hy with hy | rfl
    · exact hk.phased y hy
    · exact hphased
  · intro y hy z hz hyz hoy hoz
    rcases (Table.mem_insert? hins).mp hy with hy | rfl <;>
      rcases (Table.mem_insert? hins).mp hz with hz | rfl
    · exact hk.open_inj y hy z hz hyz hoy hoz
    · exact absurd hoy (hclosed y hy hyz)
    · exact absurd hoz (hclosed z hz hyz.symm)
    · rfl
  · intro y hy hrequested
    rcases (Table.mem_insert? hins).mp hy with hy | rfl
    · exact hk.reserved y hy hrequested
    · exact hnext
  · intro y hy hack
    rcases (Table.mem_insert? hins).mp hy with hy | rfl
    · exact ⟨(hk.acknowledged y hy hack).older, (hk.acknowledged y hy hack).current⟩
    · rw [hphase] at hack
      cases hack

/-- A host has one open rotation at most, so while it is in another phase no generation of
the host is reserved. -/
theorem Sound.not_requested (hk : k.Sound) {y : Rotation} (hx : x ∈ k.rotations)
    (hy : y ∈ k.rotations) (hhost : y.hostId = x.hostId) (hphase : x.phase = .requested)
    (hne : y.id ≠ x.id) : y.phase ≠ .requested := by
  intro hrequested
  have hox := (Rotation.isOpen_iff (hk.phased x hx)).mpr (.inl hphase)
  have hoy := (Rotation.isOpen_iff (hk.phased y hy)).mpr (.inl hrequested)
  exact hne (congrArg Rotation.id (hk.open_inj y hy x hx hhost hoy hox))

theorem Sound.exchange (hk : k.Sound) {credentials : Table Credential.id} {verifier : Verifier}
    {overlap : Millis} (hx : x ∈ k.rotations) (hphase : x.phase = .requested)
    (hhost : c.hostId = x.hostId) (hgen : c.generation = x.nextGeneration)
    (hver : ∀ c' ∈ k.credentials, c'.verifier ≠ c.verifier)
    (hins : k.credentials.insert? c = some credentials) :
    Sound { k with
      credentials
      rotations := k.rotations.update (·.id == x.id) (exchanged verifier now overlap)
        (exchanged_id verifier now overlap) } := by
  have hsame : ∀ y ∈ k.rotations, (y.id == x.id) = true → y = x := fun y hy hid =>
    Table.eq_of_key hy hx (by simpa using hid)
  have hopen := (Rotation.isOpen_iff (hk.phased x hx)).mpr (.inl hphase)
  have hphased := hk.phased x hx
  simp only [Rotation.isPhased, hphase, Bool.and_eq_true] at hphased
  have hadvanced := hk.advance (p := (·.id == x.id)) (exchanged_id verifier now overlap)
    (fun _ => rfl) (fun y hy hp => ?_) (fun y hy hp _ => hsame y hy hp ▸ hopen)
    (fun y hy hp => by simp [exchanged]) (fun y hy hp h => by simp [exchanged] at h)
  · refine hadvanced.insert (hhost ▸ hk.rotated x hx) hver ?_ ?_ hins
    · intro c' hc' hhost'
      exact hgen ▸ hk.reserved x hx hphase c' hc' (hhost'.trans hhost)
    · intro z hz hhost'
      simp only [Table.mem_update] at hz
      obtain ⟨y, hy, rfl⟩ := hz
      split at hhost'
      · next hid => simp [exchanged, hid]
      · next hne =>
        rw [if_neg hne]
        exact hk.not_requested hx hy (hhost'.trans hhost) hphase (by simpa using hne)
  · rw [hsame y hy hp]
    simp [Rotation.isPhased, exchanged, hphased]

theorem Sound.acknowledge (hk : k.Sound) (hx : x ∈ k.rotations) (hphase : x.phase = .exchanged)
    (hfenced : k.Fenced x.hostId x.nextGeneration) :
    Sound { k with
      rotations := k.rotations.update (·.id == x.id)
        (fun x => { x with phase := .acknowledged, acknowledgedAt := some now }) fun _ => rfl } := by
  have hsame : ∀ y ∈ k.rotations, (y.id == x.id) = true → y = x := fun y hy hid =>
    Table.eq_of_key hy hx (by simpa using hid)
  have hphased := hk.phased x hx
  simp only [Rotation.isPhased, hphase, Bool.and_eq_true] at hphased
  refine hk.advance _ (fun _ => rfl) ?_ ?_ (fun _ _ _ => by simp) ?_
  · intro y hy hp
    rw [hsame y hy hp]
    simp [Rotation.isPhased, hphased]
  · intro y hy hp hopen
    simp [Rotation.isOpen] at hopen
  · intro y hy hp _
    rw [hsame y hy hp]
    exact hfenced

theorem Sound.close (hk : k.Sound) {p : Rotation → Bool}
    (hp : ∀ x, p x → x.phase = .requested ∨ x.phase = .exchanged) :
    Sound { k with
      rotations := k.rotations.update p
        (fun x => { x with phase := .revoked, revokedAt := some now }) fun _ => rfl } := by
  refine hk.advance _ (fun _ => rfl) ?_ ?_ (fun _ _ _ => by simp) ?_
  · intro x hx hpx
    have hphased := hk.phased x hx
    rcases hp x hpx with hphase | hphase <;>
      simp only [Rotation.isPhased, hphase, Bool.and_eq_true, Option.isNone_iff_eq_none] at hphased <;>
      simp [Rotation.isPhased, hphased]
  · intro x hx hpx hopen
    simp [Rotation.isOpen] at hopen
  · intro x hx hpx hack
    cases hack

/-- **Every move keeps the ring sound.** -/
theorem Move.sound (h : Move k l) (hk : k.Sound) : l.Sound := by
  cases h with
  | age hf h => exact hk.age hf h
  | enroll hnew hver hins =>
    refine (hk.addHost _).insert (by simp) hver ?_ ?_ hins
    · exact fun c' hc' hhost => absurd (hhost ▸ hk.owned c' hc') hnew
    · exact fun x hx hhost => absurd (hhost ▸ hk.rotated x hx) hnew
  | recover hhost hver hgen hclosed hins => exact hk.insert hhost hver hgen hclosed hins
  | close hp => exact hk.close hp
  | request hhost hphase hphased hclosed hnext hins =>
    exact hk.request hhost hphase hphased hclosed hnext hins
  | exchange _ _ _ hx hphase hhost hgen hver hins =>
    exact hk.exchange hx hphase hhost hgen hver hins
  | acknowledge hx hphase hfenced => exact hk.acknowledge hx hphase hfenced

end KeyRing

end Gridops.Fleet
