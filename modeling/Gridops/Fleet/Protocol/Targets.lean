import Gridops.Fleet.Protocol.Agent
import Gridops.Lib.Uuid

/-!
# The key of a target

Authorization compares targets by a text, `canonical_key` of `fleet/domain.rs`. A connection id is
any text, so it may contain the separator; the numbers and UUIDs that follow it cannot.
-/

namespace Gridops.Fleet
open Gridops.Lib

namespace CiTarget

def keyKind : CiTarget → String
  | githubRepository .. => "github:repository:"
  | githubOrganization .. => "github:organization:"
  | bitbucketWorkspace .. => "bitbucket:workspace:"
  | bitbucketRepository .. => "bitbucket:repository:"

def keyBody : CiTarget → String
  | githubRepository installation other | githubOrganization installation other =>
    installation.repr ++ ":" ++ other.repr
  | bitbucketWorkspace connection workspace => connection ++ ":" ++ Uuid.print workspace
  | bitbucketRepository connection workspace repository =>
    connection ++ ":" ++ Uuid.print workspace ++ ":" ++ Uuid.print repository

/-- `canonical_key`: the scope of a target as a text. -/
def canonicalKey (t : CiTarget) : String := t.keyKind ++ t.keyBody

/-- What a Bitbucket target is identified by are UUIDs. -/
def HasUuids : CiTarget → Prop
  | bitbucketWorkspace _ workspace => workspace < 2 ^ 128
  | bitbucketRepository _ workspace repository => workspace < 2 ^ 128 ∧ repository < 2 ^ 128
  | _ => True

theorem toList_joined (s t : String) : (s ++ ":" ++ t).toList = s.toList ++ ':' :: t.toList := by
  rw [String.toList_append, String.toList_append, List.append_assoc]
  rfl

theorem numbers_inj {a b c d : Nat} (h : a.repr ++ ":" ++ b.repr = c.repr ++ ":" ++ d.repr) :
    a = c ∧ b = d := by
  have hcolon : ∀ n : Nat, ':' ∉ Nat.toDigits 10 n := fun n hmem =>
    absurd (Nat.isDigit_of_mem_toDigits (by decide) (by decide) hmem) (by decide)
  have hread : ∀ m n : Nat, Nat.toDigits 10 m = Nat.toDigits 10 n → m = n := fun m n heq => by
    rw [← Nat.ofDigitChars_ten_toDigits (n := m), heq, Nat.ofDigitChars_ten_toDigits]
  have hsplit := congrArg (fun s => s.toList.splitOn ':') h
  simp only [toList_joined, Nat.toList_repr, List.splitOn_append_cons_self_of_not_mem (hcolon _),
    List.splitOn_eq_singleton (hcolon _), List.cons.injEq] at hsplit
  exact ⟨hread a c hsplit.1, hread b d hsplit.2.1⟩

theorem uuid_inj {s t : String} {m n : Nat} (hm : m < 2 ^ 128) (hn : n < 2 ^ 128)
    (h : s ++ ":" ++ Uuid.print m = t ++ ":" ++ Uuid.print n) : s = t ∧ m = n := by
  have hlist := congrArg String.toList h
  rw [toList_joined, toList_joined] at hlist
  obtain ⟨hst, huuid⟩ := List.append_inj' hlist (by simp only [List.length_cons, Uuid.length_print])
  have hparse := congrArg Uuid.parse (String.toList_inj.mp (List.cons.inj huuid).2)
  rw [Uuid.parse_print hm, Uuid.parse_print hn] at hparse
  exact ⟨String.toList_inj.mp hst, Option.some.inj hparse⟩

variable {a b : CiTarget}

/-- No kind begins like another. -/
theorem keyKind_eq (h : a.canonicalKey = b.canonicalKey) : a.keyKind = b.keyKind := by
  let kinds := ["github:repository:", "github:organization:", "bitbucket:workspace:",
    "bitbucket:repository:"]
  have hmem : ∀ t : CiTarget, t.keyKind ∈ kinds := fun t => by
    cases t <;> simp [keyKind, kinds]
  have hbegins : ∀ k ∈ kinds, ∀ k' ∈ kinds, k.toList <+: k'.toList → k = k' := by decide
  have hstart : ∀ t : CiTarget, t.keyKind.toList <+: t.canonicalKey.toList := fun t =>
    ⟨_, (String.toList_append ..).symm⟩
  rcases List.prefix_or_prefix_of_prefix (hstart a) (h ▸ hstart b) with hab | hba
  · exact hbegins _ (hmem a) _ (hmem b) hab
  · exact (hbegins _ (hmem b) _ (hmem a) hba).symm

/-- **Targets with one key are one target.** -/
theorem canonicalKey_inj (ha : a.HasUuids) (hb : b.HasUuids) :
    a.canonicalKey = b.canonicalKey ↔ a = b := by
  refine ⟨fun h => ?_, congrArg canonicalKey⟩
  have hkind := keyKind_eq h
  have hbody : a.keyBody = b.keyBody := by
    have hlist := congrArg String.toList h
    rw [canonicalKey, canonicalKey, hkind, String.toList_append, String.toList_append] at hlist
    exact String.toList_inj.mp (List.append_cancel_left hlist)
  cases a with
  | githubRepository =>
    cases b with
    | githubRepository =>
      obtain ⟨rfl, rfl⟩ := numbers_inj hbody
      rfl
    | _ => simp [keyKind] at hkind
  | githubOrganization =>
    cases b with
    | githubOrganization =>
      obtain ⟨rfl, rfl⟩ := numbers_inj hbody
      rfl
    | _ => simp [keyKind] at hkind
  | bitbucketWorkspace =>
    cases b with
    | bitbucketWorkspace =>
      obtain ⟨rfl, rfl⟩ := uuid_inj ha hb hbody
      rfl
    | _ => simp [keyKind] at hkind
  | bitbucketRepository =>
    cases b with
    | bitbucketRepository =>
      obtain ⟨hrest, rfl⟩ := uuid_inj ha.2 hb.2 hbody
      obtain ⟨rfl, rfl⟩ := uuid_inj ha.1 hb.1 hrest
      rfl
    | _ => simp [keyKind] at hkind

theorem canonicalKey_inj_colon :
    (bitbucketWorkspace "a:b" 1).canonicalKey = (bitbucketWorkspace "a" 1).canonicalKey ↔
      bitbucketWorkspace "a:b" 1 = bitbucketWorkspace "a" 1 :=
  have h : ∀ connection, (bitbucketWorkspace connection 1).HasUuids := fun _ => by
    show (1 : Nat) < 2 ^ 128
    decide
  canonicalKey_inj (h "a:b") (h "a")

end CiTarget

end Gridops.Fleet
