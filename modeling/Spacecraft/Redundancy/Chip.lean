import Spacecraft.Fault.DeviceError
import Spacecraft.LittleEndian

/-!
# A memory chip

Bytes at addresses from zero on.  A chip switched to failing refuses every access; otherwise an access has to end
inside the memory.
-/

namespace Spacecraft

/-- A memory chip and whether it refuses accesses. -/
structure Chip where
  contents : Bytes
  failing : Bool
deriving DecidableEq

namespace Chip

/-- A working chip filled with zeros. -/
def blank (size : Nat) : Chip := ⟨List.replicate size 0, false⟩

/-- Why an access of `length` bytes at an address is refused, if it is. -/
def refusal? (chip : Chip) (address length : Nat) : Option DeviceError :=
  if chip.failing then some .io
  else if chip.contents.length < address + length then some .outOfRange
  else none

/-- The bytes at an address. -/
def read (address length : Nat) (chip : Chip) : Except DeviceError Bytes :=
  match chip.refusal? address length with
  | some e => .error e
  | none => .ok ((chip.contents.drop address).take length)

/-- The contents with bytes replaced from an address on. -/
def overlay (address : Nat) (bytes contents : Bytes) : Bytes :=
  contents.take address ++ bytes ++ contents.drop (address + bytes.length)

/-- Store bytes at an address. -/
def write (address : Nat) (bytes : Bytes) (chip : Chip) : Except DeviceError Unit × Chip :=
  match chip.refusal? address bytes.length with
  | some e => (.error e, chip)
  | none => (.ok (), { chip with contents := overlay address bytes chip.contents })

/-- The bytes at an address, whether the chip answers or not. -/
def stored (address length : Nat) (chip : Chip) : Bytes := (chip.contents.drop address).take length

/-- The chip takes an access of `length` bytes at an address. -/
def accepts (address length : Nat) (chip : Chip) : Bool := (chip.refusal? address length).isNone

/-- Let a chip refuse accesses, or accept them again. -/
def setFailing (failing : Bool) (chip : Chip) : Chip := { chip with failing }

/-- Change one byte without the chip noticing; nothing happens outside the memory. -/
def corrupt (address : Nat) (byte : UInt8) (chip : Chip) : Chip :=
  { chip with contents := chip.contents.set address byte }

section

variable {address length : Nat} {bytes : Bytes} {chip : Chip}

/-- A chip accepts an access where it works and is large enough. -/
theorem accepts_iff : chip.accepts address length = true ↔
    chip.failing = false ∧ address + length ≤ chip.contents.length := by
  unfold accepts refusal?
  cases chip.failing <;> grind

private theorem refusal?_of_accepts (h : chip.accepts address length = true) : chip.refusal? address length = none :=
  Option.isNone_iff_eq_none.1 h

/-- A chip that accepts a read answers with the bytes that it stores. -/
theorem toOption_read : (chip.read address length).toOption =
    if chip.accepts address length then some (chip.stored address length) else none := by
  unfold read accepts
  cases chip.refusal? address length <;> rfl

theorem length_stored (h : address + length ≤ chip.contents.length) : (chip.stored address length).length = length := by
  rw [stored, List.length_take, List.length_drop]
  omega

theorem getElem?_stored {k : Nat} (hk : k < length) :
    (chip.stored address length)[k]? = chip.contents[address + k]? := by
  rw [stored, List.getElem?_take_of_lt hk, List.getElem?_drop]

theorem toBool_read : (chip.read address length).toBool = chip.accepts address length := by
  unfold read accepts
  cases chip.refusal? address length <;> rfl

/-- Only the bytes at the addresses of the new ones are replaced. -/
theorem getElem?_overlay {contents : Bytes} (h : address + bytes.length ≤ contents.length) (place : Nat) :
    (overlay address bytes contents)[place]? =
      if address ≤ place ∧ place < address + bytes.length then bytes[place - address]? else contents[place]? := by
  have hfront : (contents.take address).length = address := List.length_take_of_le (by omega)
  rw [overlay, List.append_assoc, List.getElem?_append, hfront]
  by_cases hbefore : place < address
  · rw [if_pos hbefore, List.getElem?_take_of_lt hbefore, if_neg (by omega)]
  · rw [if_neg hbefore, List.getElem?_append]
    by_cases hinside : place < address + bytes.length
    · rw [if_pos (by omega), if_pos (by omega)]
    · rw [if_neg (by omega), if_neg (by omega), List.getElem?_drop]
      congr 1
      omega

theorem write_of_accepts (h : chip.accepts address bytes.length = true) :
    chip.write address bytes = (.ok (), { chip with contents := overlay address bytes chip.contents }) := by
  rw [write, refusal?_of_accepts h]

theorem snd_write_of_not_accepts (h : chip.accepts address bytes.length = false) :
    (chip.write address bytes).2 = chip := by
  unfold accepts at h
  unfold write
  split
  · rfl
  · simp_all

theorem toBool_write : (chip.write address bytes).1.toBool = chip.accepts address bytes.length := by
  unfold write accepts
  cases chip.refusal? address bytes.length <;> rfl

theorem failing_write : (chip.write address bytes).2.failing = chip.failing := by
  unfold write
  split <;> rfl

/-- Writing keeps the size of the memory. -/
theorem length_contents_write : (chip.write address bytes).2.contents.length = chip.contents.length := by
  cases h : chip.accepts address bytes.length with
  | false => rw [snd_write_of_not_accepts h]
  | true =>
    have hfit := (accepts_iff.1 h).2
    rw [write_of_accepts h]
    simp only [overlay, List.length_append, List.length_take, List.length_drop]
    omega

/-- A chip holds what it took, and else what it held before. -/
theorem stored_write (address : Nat) (bytes : Bytes) (chip : Chip) :
    (chip.write address bytes).2.stored address bytes.length =
    if chip.accepts address bytes.length then bytes else chip.stored address bytes.length := by
  cases h : chip.accepts address bytes.length with
  | false => rw [snd_write_of_not_accepts h, if_neg Bool.false_ne_true]
  | true =>
    have hfit := (accepts_iff.1 h).2
    rw [write_of_accepts h, if_pos rfl, stored, overlay, List.append_assoc, List.drop_left' (by simp; omega),
      List.take_left' rfl]

end

end Chip

end Spacecraft
