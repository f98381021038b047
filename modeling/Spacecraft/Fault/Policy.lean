/-!
# Counting policies

How a device's error counter moves: up by `increment` at a failure, down by `decrement` at a success, never above
`limit`.  A policy is stored as one word (`encode`); the top byte of the word carries nothing.
-/

namespace Spacecraft

/-- How the error counter of one device moves. -/
structure Policy where
  limit : UInt8
  increment : UInt8
  decrement : UInt8
deriving DecidableEq, Repr

namespace Policy

/-- The policy in force before any other is set. -/
def standard : Policy := ⟨128, 5, 2⟩

instance : Inhabited Policy := ⟨standard⟩

/-- A policy as one word, the limit in its lowest byte. -/
def encode (policy : Policy) : UInt32 :=
  UInt32.ofNat (policy.limit.toNat + 256 * (policy.increment.toNat + 256 * policy.decrement.toNat))

/-- The policy in a word. -/
def decode (word : UInt32) : Policy :=
  ⟨UInt8.ofNat word.toNat, UInt8.ofNat (word.toNat / 256), UInt8.ofNat (word.toNat / 65536)⟩

theorem toNat_encode (policy : Policy) :
    policy.encode.toNat = policy.limit.toNat + 256 * (policy.increment.toNat + 256 * policy.decrement.toNat) := by
  have h1 := policy.limit.toNat_lt
  have h2 := policy.increment.toNat_lt
  have h3 := policy.decrement.toNat_lt
  simp only [encode, UInt32.toNat_ofNat']
  omega

@[simp]
theorem decode_encode (policy : Policy) : decode policy.encode = policy := by
  have h1 := policy.limit.toNat_lt
  have h2 := policy.increment.toNat_lt
  have h3 := policy.decrement.toNat_lt
  obtain ⟨l, i, d⟩ := policy
  simp only [decode, toNat_encode, Policy.mk.injEq]
  refine ⟨?_, ?_, ?_⟩ <;> apply UInt8.toNat_inj.1 <;> simp only [UInt8.toNat_ofNat'] <;> simp only at * <;> omega

end Policy

end Spacecraft
