import Gridops.Fleet.Registry.Rotation

/-!
# Checked values of the wire contract

The bounded integers, timestamps and digests of `protocol/primitives.rs`. A value
that is out of range cannot be built, so every function that shows a stored number
or time to a browser can fail here.
-/

namespace Gridops.Fleet

open Gridops.Lib

inductive ContractError
  | integerRange | payloadTooLarge | invalidJson | invalidTimestamp | invalidText | unsafePath
deriving DecidableEq

structure BoundedInteger (min max : Nat) where
  value : Nat
  bounds : min ≤ value ∧ value ≤ max
deriving DecidableEq

namespace BoundedInteger

variable {min max : Nat}

def new (value : Nat) : Except ContractError (BoundedInteger min max) :=
  if h : min ≤ value ∧ value ≤ max then .ok ⟨value, h⟩ else .error .integerRange

theorem new_ok {value : Nat} {b : BoundedInteger min max} :
    new value = .ok b ↔ b.value = value := by
  unfold new
  rw [dite_eq_ok]
  exact ⟨fun ⟨_, h⟩ => h ▸ rfl, fun h => ⟨h ▸ b.bounds, by cases b; cases h; rfl⟩⟩

end BoundedInteger

def maxSafeInteger : Nat := 2 ^ 53 - 1

abbrev BrowserUint53 := BoundedInteger 0 maxSafeInteger
abbrev BrowserCounter := BoundedInteger 1 maxSafeInteger
abbrev PageSize := BoundedInteger 1 100

/-- The first millisecond of the year 0 and the last one of the year 9999. -/
def firstWireMillis : Millis := -62167219200000
def lastWireMillis : Millis := 253402300799999

structure WireTimestamp where
  millis : Millis
  years : firstWireMillis ≤ millis ∧ millis ≤ lastWireMillis
deriving DecidableEq

namespace WireTimestamp

def fromMillis (value : Millis) : Except ContractError WireTimestamp :=
  if h : firstWireMillis ≤ value ∧ value ≤ lastWireMillis then .ok ⟨value, h⟩
  else .error .invalidTimestamp

theorem fromMillis_ok {value : Millis} {t : WireTimestamp} :
    fromMillis value = .ok t ↔ t.millis = value := by
  unfold fromMillis
  rw [dite_eq_ok]
  exact ⟨fun ⟨_, h⟩ => h ▸ rfl, fun h => ⟨h ▸ t.years, by cases t; cases h; rfl⟩⟩

def Carries (value : Millis) : Prop := firstWireMillis ≤ value ∧ value ≤ lastWireMillis

instance (value : Millis) : Decidable (Carries value) := inferInstanceAs (Decidable (_ ∧ _))

end WireTimestamp

structure Sha256Digest where
  text : String
  canonical : validateSecretText text = true
deriving DecidableEq

namespace Sha256Digest

def tryFrom (value : String) : Except ContractError Sha256Digest :=
  if h : validateSecretText value = true then .ok ⟨value, h⟩ else .error .invalidText

theorem tryFrom_ok {value : String} {d : Sha256Digest} :
    tryFrom value = .ok d ↔ d.text = value := by
  unfold tryFrom
  rw [dite_eq_ok]
  exact ⟨fun ⟨_, h⟩ => h ▸ rfl, fun h => ⟨h ▸ d.canonical, by cases d; cases h; rfl⟩⟩

end Sha256Digest

end Gridops.Fleet
