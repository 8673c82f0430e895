import Gridops.Lib.Json

/-!
# Typed values as JSON

A `Codec` is how a type is written as JSON and read back: what a value is written as, the reader,
which values a reader ever returns, and a bound on the written size. Its laws are fields, so a codec
put together from others has them by construction: a valid value is read back whatever the order of
the fields (`decode_encode`), only valid values are read (`valid_of_decode`), and the text of a
value is no longer than `cost` says.

`Record` is the same for the fields of one object and `Variants` for the objects of an enumeration
that names its case in a tag field. A field that stands twice is refused, and a missing one that has
no default.
-/

namespace Gridops.Lib

open Json

/-- What the name of a field or a case may cost: no name has more than 33 bytes. -/
def nameCost : Nat := 200

structure Codec (α : Type) where
  encode : α → Json
  decode : Json → Option α
  Valid : α → Prop
  cost : α → Nat
  decode_encode : ∀ {a}, Valid a → ∀ {f}, Rearranges f → decode ((encode a).rearrange f) = some a
  valid_of_decode : ∀ {j a}, decode j = some a → Valid a
  weight_le : ∀ {a}, Valid a → (encode a).weight ≤ cost a

/-! ## Fields by their names -/

def occurrences (k : String) (l : List (String × Json)) : List Json :=
  (l.filter (·.1 == k)).map (·.2)

theorem filter_key : ∀ {m : List (String × Json)} {p : String × Json},
    (m.map Prod.fst).Nodup → p ∈ m → m.filter (·.1 == p.1) = [p]
  | q :: m, p, hm, hp => by
    rw [List.map_cons, List.nodup_cons] at hm
    rcases List.mem_cons.mp hp with rfl | hp
    · have hnone : m.filter (·.1 == p.1) = [] := by
        rw [List.filter_eq_nil_iff]
        intro r hr heq
        exact hm.1 (List.mem_map.mpr ⟨r, hr, beq_iff_eq.mp heq⟩)
      rw [List.filter_cons_of_pos (by simp), hnone]
    · have hne : (q.1 == p.1) = false :=
        beq_eq_false_iff_ne.mpr fun heq => hm.1 (heq ▸ List.mem_map_of_mem hp)
      rw [List.filter_cons_of_neg (by simp [hne]), filter_key hm.2 hp]

theorem occurrences_of_perm {l m : List (String × Json)} (h : l.Perm m)
    (hm : (m.map Prod.fst).Nodup) {p : String × Json} (hp : p ∈ m) :
    occurrences p.1 l = [p.2] := by
  have hperm := h.filter (·.1 == p.1)
  rw [filter_key hm hp] at hperm
  rw [occurrences, List.perm_singleton.mp hperm]
  rfl

section Rearranged

variable {f : List (String × Json) → List (String × Json)}

theorem keys_rearrangeFields (f : List (String × Json) → List (String × Json))
    (fs : List (String × Json)) : (rearrangeFields f fs).map Prod.fst = fs.map Prod.fst := by
  simp [rearrangeFields_eq_map]

theorem occurrences_rearranged {l fs : List (String × Json)} (h : l.Perm (rearrangeFields f fs))
    (hfs : (fs.map Prod.fst).Nodup) {p : String × Json} (hp : p ∈ fs) :
    occurrences p.1 l = [p.2.rearrange f] := by
  have hmem : (p.1, p.2.rearrange f) ∈ rearrangeFields f fs := by
    rw [rearrangeFields_eq_map]
    exact List.mem_map_of_mem hp
  exact occurrences_of_perm h (keys_rearrangeFields f fs ▸ hfs) hmem

end Rearranged

/-! ## Codecs of texts and numbers -/

namespace Codec

variable {α β : Type}

theorem decode_encode_self (c : Codec α) {a : α} (h : c.Valid a) :
    c.decode (c.encode a) = some a := by
  have hread := c.decode_encode h (f := id) .refl
  rwa [rearrange_id] at hread

theorem encode_injOn (c : Codec α) {a b : α} (ha : c.Valid a) (hb : c.Valid b)
    (h : c.encode a = c.encode b) : a = b := by
  have hread := c.decode_encode_self ha
  rw [h, c.decode_encode_self hb] at hread
  exact (Option.some.inj hread).symm

def bool : Codec Bool where
  encode b := .bool b
  decode | .bool b => some b | _ => none
  Valid _ := True
  cost _ := 5
  decode_encode _ _ _ := rfl
  valid_of_decode _ := trivial
  weight_le _ := Nat.le_refl _

theorem valid_bool (b : Bool) : bool.Valid b := trivial

/-- The integers from `min` to `max`. -/
def bounded (min max : Nat) (hmax : max < 10 ^ 20) : Codec Nat where
  encode n := .num n
  decode
    | .num (.ofNat n) => if min ≤ n ∧ n ≤ max then some n else none
    | _ => none
  Valid n := min ≤ n ∧ n ≤ max
  cost _ := 20
  decode_encode h _ _ := if_pos h
  valid_of_decode {j a} h := by
    split at h
    · next n =>
      obtain ⟨hn, ha⟩ := Option.ite_none_right_eq_some.mp h
      exact Option.some.inj ha ▸ hn
    · cases h
  weight_le {n} h := by
    have hdigits : (Nat.toDigits 10 n).length ≤ 20 :=
      (Nat.length_toDigits_le_iff (by decide) (by decide)).mpr (Nat.lt_of_le_of_lt h.2 hmax)
    have hnonneg : ¬ ((n : Int) < 0) := by omega
    simp only [weight, printInt, if_neg hnonneg, Int.natAbs_natCast]
    exact hdigits

def ofText (write : α → String) (read : String → Option α) (Valid : α → Prop) (cost : α → Nat)
    (read_write : ∀ {a}, Valid a → read (write a) = some a)
    (valid_of_read : ∀ {s a}, read s = some a → Valid a)
    (weight_le : ∀ {a}, Valid a → stringWeight (write a) ≤ cost a) : Codec α where
  encode a := .str (write a)
  decode | .str s => read s | _ => none
  Valid := Valid
  cost := cost
  decode_encode h _ _ := read_write h
  valid_of_decode {j a} h := by
    split at h
    · exact valid_of_read h
    · cases h
  weight_le := weight_le

def text (ok : String → Bool) (cost : String → Nat)
    (weight_le : ∀ {s}, ok s = true → stringWeight s ≤ cost s) : Codec String :=
  ofText id (fun s => if ok s then some s else none) (fun s => ok s = true) cost
    (fun h => if_pos h)
    (fun h => by
      obtain ⟨hs, ha⟩ := Option.ite_none_right_eq_some.mp h
      exact Option.some.inj ha ▸ hs)
    weight_le

def named (name : α → String) (all : List α) (hall : ∀ a, a ∈ all)
    (hname : ∀ a ∈ all, ∀ b ∈ all, name a = name b → a = b)
    (hcost : ∀ a ∈ all, stringWeight (name a) ≤ nameCost) : Codec α :=
  ofText name (fun s => all.find? (name · == s)) (fun _ => True) (fun _ => nameCost)
    (fun {a} _ => by
      have hfound : (all.find? (name · == name a)).isSome :=
        List.find?_isSome.mpr ⟨a, hall a, beq_self_eq_true _⟩
      obtain ⟨b, hb⟩ := Option.isSome_iff_exists.mp hfound
      have hsame : name b = name a := by simpa using List.find?_some hb
      rw [hb, hname b (hall b) a (hall a) hsame])
    (fun _ => trivial) fun {a} _ => hcost a (hall a)

/-! ## Lists, options and other types -/

theorem exists_of_mem_mapM {d : Json → Option α} : ∀ {vs : List Json} {as : List α} {a : α},
    vs.mapM d = some as → a ∈ as → ∃ v, d v = some a
  | [], as, a, h, ha => by
    cases h
    cases ha
  | v :: vs, as, a, h, ha => by
    rw [List.mapM_cons] at h
    obtain ⟨b, hb, h⟩ := Option.bind_eq_some_iff.mp h
    obtain ⟨bs, hbs, h⟩ := Option.bind_eq_some_iff.mp h
    cases h
    rcases List.mem_cons.mp ha with rfl | ha
    · exact ⟨v, hb⟩
    · exact exists_of_mem_mapM hbs ha

def listCost (c : Codec α) (as : List α) : Nat := (as.map fun a => c.cost a + 1).sum

def list (c : Codec α) : Codec (List α) where
  encode as := .arr (as.map c.encode)
  decode | .arr vs => vs.mapM c.decode | _ => none
  Valid as := ∀ a ∈ as, c.Valid a
  cost as := 2 + listCost c as
  decode_encode {as} h f hf := by
    have hitems : ∀ as : List α, (∀ a ∈ as, c.Valid a) →
        (rearrangeItems f (as.map c.encode)).mapM c.decode = some as := by
      intro as
      induction as with
      | nil => intro _; rfl
      | cons a as ih =>
        intro h
        have ha := c.decode_encode (h a (List.mem_cons_self ..)) hf
        have has := ih fun b hb => h b (List.mem_cons_of_mem _ hb)
        rw [List.map_cons, rearrangeItems, List.mapM_cons, ha, has]
        rfl
    exact hitems as h
  valid_of_decode {j as} h := by
    split at h
    · next vs =>
      intro a ha
      obtain ⟨v, hv⟩ := exists_of_mem_mapM h ha
      exact c.valid_of_decode hv
    · cases h
  weight_le {as} h := by
    have hitems : ∀ as : List α, (∀ a ∈ as, c.Valid a) →
        weightItems (as.map c.encode) ≤ listCost c as := by
      intro as
      induction as with
      | nil => intro _; exact Nat.le_refl _
      | cons a as ih =>
        intro h
        have ha := c.weight_le (h a (List.mem_cons_self ..))
        have has := ih fun b hb => h b (List.mem_cons_of_mem _ hb)
        simp only [listCost, List.map_cons, weightItems, List.sum_cons] at has ⊢
        omega
    exact Nat.add_le_add_left (hitems as h) 2

/-- An absent value is written as `null`. -/
def option (c : Codec α) (hnull : ∀ a, c.encode a ≠ .null) : Codec (Option α) where
  encode | some a => c.encode a | none => .null
  decode | .null => some none | j => (c.decode j).map some
  Valid o := ∀ a ∈ o, c.Valid a
  cost | some a => c.cost a + 4 | none => 4
  decode_encode {o} h f hf := by
    cases o with
    | none => rfl
    | some a =>
      have hread := c.decode_encode (h a rfl) hf
      have hne : (c.encode a).rearrange f ≠ .null := by
        have henc := hnull a
        cases hj : c.encode a <;> simp_all [rearrange]
      dsimp only
      split
      · next hnull => exact absurd hnull hne
      · rw [hread]
        rfl
  valid_of_decode {j o} h := by
    split at h
    · cases h
      simp
    · obtain ⟨a, ha, rfl⟩ := Option.map_eq_some_iff.mp h
      intro b hb
      cases hb
      exact c.valid_of_decode ha
  weight_le {o} h := by
    cases o with
    | none => exact Nat.le_refl _
    | some a => exact Nat.le_add_right_of_le (c.weight_le (h a rfl))

end Codec

/-! ## Objects -/

structure Record (σ : Type) where
  names : List String
  fields : σ → List (String × Json)
  read : List (String × Json) → Option σ
  Valid : σ → Prop
  cost : σ → Nat
  names_eq : ∀ a, (fields a).map Prod.fst = names
  read_fields : ∀ {a}, Valid a → ∀ {f}, Rearranges f → ∀ {l : List (String × Json)},
    (∀ p ∈ fields a, occurrences p.1 l = [p.2.rearrange f]) → read l = some a
  valid_of_read : ∀ {l a}, read l = some a → Valid a
  weight_le : ∀ {a}, Valid a → weightFields (fields a) ≤ cost a

namespace Record

variable {α β : Type}

def unit : Record Unit where
  names := []
  fields _ := []
  read _ := some ()
  Valid _ := True
  cost _ := 0
  names_eq _ := rfl
  read_fields _ _ _ _ _ := rfl
  valid_of_read _ := trivial
  weight_le _ := Nat.le_refl _

theorem weight_single (c : Codec α) {name : String} (hname : stringWeight name ≤ nameCost) :
    ∀ {a}, c.Valid a → weightFields [(name, c.encode a)] ≤ nameCost + 2 + c.cost a := by
  intro a h
  have hweight := c.weight_le h
  simp only [weightFields]
  omega

def fieldOr (name : String) (c : Codec α) (default : Option α)
    (hdefault : ∀ a ∈ default, c.Valid a) (hname : stringWeight name ≤ nameCost := by decide) :
    Record α where
  names := [name]
  fields a := [(name, c.encode a)]
  read l :=
    match occurrences name l with
    | [] => default
    | [v] => c.decode v
    | _ => none
  Valid := c.Valid
  cost a := nameCost + 2 + c.cost a
  names_eq _ := rfl
  read_fields {a} h f hf l hl := by
    have hfound := hl (name, c.encode a) (List.mem_singleton_self _)
    simp only [hfound]
    exact c.decode_encode h hf
  valid_of_read {l a} h := by
    split at h
    · exact hdefault a h
    · exact c.valid_of_decode h
    · cases h
  weight_le := @weight_single _ c _ hname

def field (name : String) (c : Codec α) (hname : stringWeight name ≤ nameCost := by decide) :
    Record α :=
  fieldOr name c none (by simp) hname

/-- A field whose value may be `null` or absent. -/
def optional (name : String) (c : Codec α) (hnull : ∀ a, c.encode a ≠ .null)
    (hname : stringWeight name ≤ nameCost := by decide) : Record (Option α) :=
  fieldOr name (c.option hnull) (some none)
    (by
      rintro o ho a ha
      cases ho
      cases ha)
    hname

def and (r : Record α) (t : Record β) : Record (α × β) where
  names := r.names ++ t.names
  fields a := r.fields a.1 ++ t.fields a.2
  read l := (r.read l).bind fun a => (t.read l).map (a, ·)
  Valid a := r.Valid a.1 ∧ t.Valid a.2
  cost a := r.cost a.1 + t.cost a.2
  names_eq a := by rw [List.map_append, r.names_eq, t.names_eq]
  read_fields {a} h f hf l hl := by
    have hr := r.read_fields h.1 hf fun p hp => hl p (List.mem_append_left _ hp)
    have ht := t.read_fields h.2 hf fun p hp => hl p (List.mem_append_right _ hp)
    rw [hr, ht]
    rfl
  valid_of_read {l a} h := by
    obtain ⟨b, hb, h⟩ := Option.bind_eq_some_iff.mp h
    obtain ⟨d, hd, rfl⟩ := Option.map_eq_some_iff.mp h
    exact ⟨r.valid_of_read hb, t.valid_of_read hd⟩
  weight_le {a} h := by
    have hr := r.weight_le h.1
    have ht := t.weight_le h.2
    simp only [weightFields_eq_sum, List.map_append, List.sum_append] at hr ht ⊢
    omega

def iso (r : Record α) (e : α ≃ β) : Record β where
  names := r.names
  fields b := r.fields (e.symm b)
  read l := (r.read l).map e
  Valid b := r.Valid (e.symm b)
  cost b := r.cost (e.symm b)
  names_eq b := r.names_eq _
  read_fields {b} h f hf l hl := by
    rw [r.read_fields h hf hl, Option.map_some, e.apply_symm_apply]
  valid_of_read {l b} h := by
    obtain ⟨a, ha, rfl⟩ := Option.map_eq_some_iff.mp h
    rw [e.symm_apply_apply]
    exact r.valid_of_read ha
  weight_le h := r.weight_le h

def knows (r : Record α) (l : List (String × Json)) : Bool := l.all fun p => r.names.contains p.1

/-- Reads the fields, and refuses others if `closed`. -/
def readAs (r : Record α) (closed : Bool) (l : List (String × Json)) : Option α :=
  if closed && !r.knows l then none else r.read l

theorem readAs_rearranged (r : Record α) (closed : Bool) (hnames : r.names.Nodup) {a : α}
    (h : r.Valid a) {f : List (String × Json) → List (String × Json)} (hf : Rearranges f)
    {l : List (String × Json)} (hl : l.Perm (rearrangeFields f (r.fields a))) :
    r.readAs closed l = some a := by
  have hkeys : (l.map Prod.fst).Perm r.names := by
    have hperm := hl.map Prod.fst
    rwa [keys_rearrangeFields, r.names_eq] at hperm
  have hknown : r.knows l = true := by
    refine List.all_eq_true.mpr fun p hp => ?_
    exact List.contains_iff_mem.mpr (hkeys.mem_iff.mp (List.mem_map_of_mem hp))
  have hread := r.read_fields h hf fun p hp =>
    occurrences_rearranged hl (r.names_eq a ▸ hnames) hp
  rw [readAs, hknown, hread]
  simp

theorem valid_of_readAs (r : Record α) {closed : Bool} {l : List (String × Json)} {a : α}
    (h : r.readAs closed l = some a) : r.Valid a := by
  unfold readAs at h
  split at h
  · cases h
  · exact r.valid_of_read h

def object (r : Record α) (closed : Bool)
    (hnames : r.names.Nodup := by exact of_decide_eq_true rfl) : Codec α where
  encode a := .obj (r.fields a)
  decode | .obj l => r.readAs closed l | _ => none
  Valid := r.Valid
  cost a := 2 + r.cost a
  decode_encode h _ hf := r.readAs_rearranged closed hnames h hf (hf _)
  valid_of_decode {j a} h := by
    split at h
    · exact r.valid_of_readAs h
    · cases h
  weight_le h := Nat.add_le_add_left (r.weight_le h) 2

end Record

/-! ## Enumerations with a tag -/

/-- The cases of an enumeration: the name of each and the fields that stand beside it. -/
structure Variants (α : Type) where
  names : List String
  keys : List String
  name : α → String
  fields : α → List (String × Json)
  read : String → List (String × Json) → Option α
  Valid : α → Prop
  cost : α → Nat
  name_mem : ∀ a, name a ∈ names
  key_mem : ∀ a, ∀ p ∈ fields a, p.1 ∈ keys
  read_fields : ∀ {a}, Valid a → ∀ {f}, Rearranges f → ∀ {l : List (String × Json)},
    l.Perm (rearrangeFields f (fields a)) → read (name a) l = some a
  valid_of_read : ∀ {n l a}, read n l = some a → Valid a
  weight_le : ∀ {a}, Valid a → stringWeight (name a) + weightFields (fields a) ≤ cost a

namespace Variants

variable {α β : Type}

def case (name : String) (r : Record α) (closed : Bool)
    (hnames : r.names.Nodup := by exact of_decide_eq_true rfl)
    (hname : stringWeight name ≤ nameCost := by decide) : Variants α where
  names := [name]
  keys := r.names
  name _ := name
  fields := r.fields
  read n l := if n = name then r.readAs closed l else none
  Valid := r.Valid
  cost a := nameCost + r.cost a
  name_mem _ := List.mem_singleton_self _
  key_mem a p hp := r.names_eq a ▸ List.mem_map_of_mem hp
  read_fields h _ hf _ hl := by
    rw [if_pos rfl, r.readAs_rearranged closed hnames h hf hl]
  valid_of_read {n l a} h := by
    split at h
    · exact r.valid_of_readAs h
    · cases h
  weight_le h := Nat.add_le_add hname (r.weight_le h)

def or (v : Variants α) (w : Variants β)
    (hnames : ∀ n ∈ w.names, n ∉ v.names := by exact of_decide_eq_true rfl) : Variants (α ⊕ β) where
  names := v.names ++ w.names
  keys := v.keys ++ w.keys
  name := Sum.elim v.name w.name
  fields := Sum.elim v.fields w.fields
  read n l := if n ∈ v.names then (v.read n l).map .inl else (w.read n l).map .inr
  Valid := Sum.elim v.Valid w.Valid
  cost := Sum.elim v.cost w.cost
  name_mem
    | .inl a => List.mem_append_left _ (v.name_mem a)
    | .inr b => List.mem_append_right _ (w.name_mem b)
  key_mem
    | .inl a, p, hp => List.mem_append_left _ (v.key_mem a p hp)
    | .inr b, p, hp => List.mem_append_right _ (w.key_mem b p hp)
  read_fields {a} h f hf l hl := by
    cases a with
    | inl a =>
      have hread := v.read_fields h hf hl
      simp [v.name_mem a, hread]
    | inr b =>
      have hread := w.read_fields h hf hl
      simp [hnames _ (w.name_mem b), hread]
  valid_of_read {n l a} h := by
    split at h
    · obtain ⟨a, ha, rfl⟩ := Option.map_eq_some_iff.mp h
      exact v.valid_of_read ha
    · obtain ⟨b, hb, rfl⟩ := Option.map_eq_some_iff.mp h
      exact w.valid_of_read hb
  weight_le {a} h := by
    cases a with
    | inl a => exact v.weight_le h
    | inr b => exact w.weight_le h

def iso (v : Variants α) (e : α ≃ β) : Variants β where
  names := v.names
  keys := v.keys
  name b := v.name (e.symm b)
  fields b := v.fields (e.symm b)
  read n l := (v.read n l).map e
  Valid b := v.Valid (e.symm b)
  cost b := v.cost (e.symm b)
  name_mem b := v.name_mem _
  key_mem b := v.key_mem _
  read_fields {b} h f hf l hl := by
    rw [v.read_fields h hf hl, Option.map_some, e.apply_symm_apply]
  valid_of_read {n l b} h := by
    obtain ⟨a, ha, rfl⟩ := Option.map_eq_some_iff.mp h
    rw [e.symm_apply_apply]
    exact v.valid_of_read ha
  weight_le h := v.weight_le h

/-- The object that names its case under `tag`. -/
def tagged (tag : String) (v : Variants α) (htag : tag ∉ v.keys := by exact of_decide_eq_true rfl)
    (hname : stringWeight tag ≤ nameCost := by decide) : Codec α where
  encode a := .obj ((tag, .str (v.name a)) :: v.fields a)
  decode
    | .obj l =>
      match occurrences tag l with
      | [.str n] => v.read n (l.filter (·.1 != tag))
      | _ => none
    | _ => none
  Valid := v.Valid
  cost a := 4 + nameCost + v.cost a
  decode_encode {a} h f hf := by
    have hother : ∀ p ∈ rearrangeFields f (v.fields a), p.1 ≠ tag := by
      rintro p hp rfl
      have hkey := List.mem_map_of_mem (f := Prod.fst) hp
      rw [keys_rearrangeFields] at hkey
      obtain ⟨q, hq, heq⟩ := List.mem_map.mp hkey
      exact htag (heq ▸ v.key_mem a q hq)
    have hperm := hf (rearrangeFields f ((tag, .str (v.name a)) :: v.fields a))
    rw [rearrangeFields, rearrange] at hperm
    -- the tag is found once, and what is left are the fields of the case
    have hfound : occurrences tag (f ((tag, .str (v.name a)) :: rearrangeFields f (v.fields a)))
        = [.str (v.name a)] := by
      have hnone : (rearrangeFields f (v.fields a)).filter (·.1 == tag) = [] :=
        List.filter_eq_nil_iff.mpr fun p hp => by simpa using hother p hp
      have htags := hperm.filter (·.1 == tag)
      rw [List.filter_cons_of_pos (by simp), hnone] at htags
      rw [occurrences, List.perm_singleton.mp htags]
      rfl
    have hall : (rearrangeFields f (v.fields a)).filter (·.1 != tag)
        = rearrangeFields f (v.fields a) :=
      List.filter_eq_self.mpr fun p hp => by simpa using hother p hp
    have hrest := hperm.filter (·.1 != tag)
    rw [List.filter_cons_of_neg (by simp), hall] at hrest
    simp only [rearrange, rearrangeFields, hfound]
    exact v.read_fields h hf hrest
  valid_of_decode {j a} h := by
    split at h
    · split at h
      · exact v.valid_of_read h
      · cases h
    · cases h
  weight_le {a} h := by
    have hweight := v.weight_le h
    simp only [weight, weightFields]
    omega

end Variants

/-! ## Costs

What a codec put together from others costs is the sum of what its parts cost. The equations
hold by definition and are still used by rewriting, so that no sum is compared by evaluation.
-/

section Cost

variable {α β : Type}

@[simp] theorem Codec.cost_bool (b : Bool) : Codec.bool.cost b = 5 := (rfl)

@[simp] theorem Codec.cost_bounded (min max : Nat) (hmax : max < 10 ^ 20) (n : Nat) :
    (Codec.bounded min max hmax).cost n = 20 := (rfl)

@[simp] theorem Codec.cost_named (name : α → String) (all : List α) (hall hname hcost) (a : α) :
    (Codec.named name all hall hname hcost).cost a = nameCost := (rfl)

@[simp] theorem Codec.cost_list (c : Codec α) (as : List α) :
    c.list.cost as = 2 + c.listCost as := (rfl)

theorem Codec.cost_option_le (c : Codec α) (hnull : ∀ a, c.encode a ≠ .null) {max : Nat}
    (h : ∀ a, c.cost a ≤ max) (o : Option α) : (c.option hnull).cost o ≤ max + 4 := by
  cases o with
  | none => exact Nat.le_add_left 4 max
  | some a => exact Nat.add_le_add_right (h a) 4

theorem Codec.listCost_le (c : Codec α) {max : Nat} (h : ∀ a, c.cost a ≤ max) (as : List α) :
    c.listCost as ≤ as.length * (max + 1) := by
  induction as with
  | nil => exact Nat.zero_le _
  | cons a as ih =>
    have ha := h a
    simp only [Codec.listCost, List.map_cons, List.sum_cons, List.length_cons, Nat.succ_mul] at ih ⊢
    omega

@[simp] theorem Record.cost_unit (a : Unit) : Record.unit.cost a = 0 := (rfl)

variable (name : String)

@[simp] theorem Record.cost_fieldOr (c : Codec α) (default : Option α) (hdefault hname) (a : α) :
    (Record.fieldOr name c default hdefault hname).cost a = nameCost + 2 + c.cost a := (rfl)

@[simp] theorem Record.cost_field (c : Codec α) (hname) (a : α) :
    (Record.field name c hname).cost a = nameCost + 2 + c.cost a := (rfl)

@[simp] theorem Record.cost_optional (c : Codec α) (hnull hname) (o : Option α) :
    (Record.optional name c hnull hname).cost o = nameCost + 2 + (c.option hnull).cost o := (rfl)

@[simp] theorem Record.cost_and (r : Record α) (t : Record β) (a : α × β) :
    (r.and t).cost a = r.cost a.1 + t.cost a.2 := (rfl)

@[simp] theorem Record.cost_iso (r : Record α) (e : α ≃ β) (b : β) :
    (r.iso e).cost b = r.cost (e.symm b) := (rfl)

@[simp] theorem Record.cost_object (r : Record α) (closed : Bool) (hnames) (a : α) :
    (r.object closed hnames).cost a = 2 + r.cost a := (rfl)

@[simp] theorem Variants.cost_case (r : Record α) (closed : Bool) (hnames hname) (a : α) :
    (Variants.case name r closed hnames hname).cost a = nameCost + r.cost a := (rfl)

@[simp] theorem Variants.cost_inl (v : Variants α) (w : Variants β) (hnames) (a : α) :
    (v.or w hnames).cost (.inl a) = v.cost a := (rfl)

@[simp] theorem Variants.cost_inr (v : Variants α) (w : Variants β) (hnames) (b : β) :
    (v.or w hnames).cost (.inr b) = w.cost b := (rfl)

@[simp] theorem Variants.cost_iso (v : Variants α) (e : α ≃ β) (b : β) :
    (v.iso e).cost b = v.cost (e.symm b) := (rfl)

@[simp] theorem Variants.cost_tagged (tag : String) (v : Variants α) (htag hname) (a : α) :
    (v.tagged tag htag hname).cost a = 4 + nameCost + v.cost a := (rfl)

end Cost

end Gridops.Lib
