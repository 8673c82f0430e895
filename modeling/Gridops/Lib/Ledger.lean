import Mathlib

/-!
# Ledgers over a tree of accounts

A ledger is a list of entries, each charging an amount to one account until it is closed. Accounts
stand in a tree; a posting charges the same amount to every account on the way from one of them to
its root.

`Ledger.Within` says that no account is charged more than its budget. The rules below are the ways a
ledger may change and stay within.
-/

namespace Gridops.Lib

/-- How entries of type `α` charge amounts in `M` to accounts in `κ`. -/
structure Ledger (α κ M : Type) where
  account : α → κ
  isOpen : α → Bool
  amount : α → M

namespace Ledger

variable {α κ M : Type} [DecidableEq κ] [AddCommMonoid M] (L : Ledger α κ M)

/-- What the open entries charge to account `k`. -/
def charge (l : List α) (k : κ) : M :=
  ((l.filter fun a => L.account a == k && L.isOpen a).map L.amount).sum

variable {L} {l l' : List α} {k : κ}

@[simp] theorem charge_nil : L.charge [] k = 0 := rfl

theorem charge_cons {a : α} : L.charge (a :: l) k =
    (if L.account a = k ∧ L.isOpen a then L.amount a else 0) + L.charge l k := by
  by_cases h : L.account a = k ∧ L.isOpen a
  · simp [charge, h.1, h.2]
  · rw [if_neg h, zero_add, charge, charge, List.filter_cons_of_neg (by simpa using h)]

theorem charge_append : L.charge (l ++ l') k = L.charge l k + L.charge l' k := by
  simp [charge]

theorem charge_eq_zero (h : ∀ a ∈ l, L.account a ≠ k) : L.charge l k = 0 := by
  have hnone : l.filter (fun a => L.account a == k && L.isOpen a) = [] :=
    List.filter_eq_nil_iff.mpr fun a ha => by simp [h a ha]
  simp [charge, hnone]

/-- One open entry for each of several accounts charges each of them once. -/
theorem charge_post {entries : List α} {w : M} (hnodup : (entries.map L.account).Nodup)
    (hopen : ∀ a ∈ entries, L.isOpen a ∧ L.amount a = w) :
    L.charge entries k = if k ∈ entries.map L.account then w else 0 := by
  induction entries with
  | nil => simp
  | cons a entries ih =>
    rw [List.map_cons, List.nodup_cons] at hnodup
    have ih := ih hnodup.2 fun b hb => hopen b (List.mem_cons_of_mem a hb)
    obtain ⟨ho, hw⟩ := hopen a List.mem_cons_self
    rw [charge_cons, ih]
    by_cases hk : L.account a = k
    · subst hk
      simp [ho, hw, hnodup.1]
    · simp [hk, Ne.symm hk]

section Ordered

variable [PartialOrder M] [IsOrderedAddMonoid M] [CanonicallyOrderedAdd M]

/-- `b` is the entry `a` later on: it may have been closed. -/
structure Later (L : Ledger α κ M) (a b : α) : Prop where
  account : L.account b = L.account a
  amount : L.amount b = L.amount a
  isOpen : L.isOpen b → L.isOpen a

theorem charge_later (h : List.Forall₂ L.Later l l') : L.charge l' k ≤ L.charge l k := by
  induction h with
  | nil => exact le_rfl
  | @cons a b l l' hab _ ih =>
    rw [charge_cons, charge_cons, hab.account, hab.amount]
    refine add_le_add ?_ ih
    by_cases hb : L.account a = k ∧ L.isOpen b
    · rw [if_pos hb, if_pos ⟨hb.1, hab.isOpen hb.2⟩]
    · rw [if_neg hb]
      exact zero_le

def Within (L : Ledger α κ M) (l : List α) (budget : κ → Option M) : Prop :=
  ∀ k b, budget k = some b → L.charge l k ≤ b

variable {budget budget' : κ → Option M}

theorem Within.later (h : L.Within l budget) (hl : List.Forall₂ L.Later l l') :
    L.Within l' budget :=
  fun k b hb => (charge_later hl).trans (h k b hb)

omit [IsOrderedAddMonoid M] [CanonicallyOrderedAdd M] in
/-- **Posting.** One more entry for each account that has room for it. -/
theorem Within.post (h : L.Within l budget) {entries : List α} {w : M}
    (hnodup : (entries.map L.account).Nodup)
    (hopen : ∀ a ∈ entries, L.isOpen a ∧ L.amount a = w)
    (hroom : ∀ k ∈ entries.map L.account, ∀ b, budget k = some b → L.charge l k + w ≤ b) :
    L.Within (l ++ entries) budget := by
  intro k b hb
  rw [charge_append, charge_post hnodup hopen]
  split
  · next hk => exact hroom k hk b hb
  · rw [add_zero]
    exact h k b hb

omit [IsOrderedAddMonoid M] in
theorem Within.raise (h : L.Within l budget)
    (hle : ∀ k b', budget' k = some b' →
      (∃ b, budget k = some b ∧ b ≤ b') ∨ ∀ a ∈ l, L.account a ≠ k) :
    L.Within l budget' := by
  intro k b' hb'
  rcases hle k b' hb' with ⟨b, hb, hbb'⟩ | hnone
  · exact (h k b hb).trans hbb'
  · rw [charge_eq_zero hnone]
    exact zero_le

end Ordered

end Ledger

/-- The accounts from one of them up to its root. `parent k` is `none` where there is no
such account, and `some none` at a root. -/
inductive ToRoot {κ : Type} (parent : κ → Option (Option κ)) : κ → List κ → Prop
  | root {k : κ} (h : parent k = some none) : ToRoot parent k [k]
  | step {k p : κ} {ks : List κ} (h : parent k = some (some p)) (hrest : ToRoot parent p ks) :
      ToRoot parent k (k :: ks)

theorem ToRoot.mono {κ : Type} {parent parent' : κ → Option (Option κ)} {k : κ} {ks : List κ}
    (h : ToRoot parent k ks) (hle : ∀ k v, parent k = some v → parent' k = some v) :
    ToRoot parent' k ks := by
  induction h with
  | root h => exact .root (hle _ _ h)
  | step h _ ih => exact .step (hle _ _ h) ih

end Gridops.Lib
