import Spacecraft.LittleEndian

/-!
# CRC-32 of a record

The cyclic redundancy check of Ethernet and ZIP, worked out one bit at a time: the register starts at all ones, takes
each byte into its low end, is divided by the reflected polynomial and is complemented at the end.  A sealed record
ends with the check of everything before it, in four bytes (`sealed`, `verify`).
-/

namespace Spacecraft

namespace Checksum

/-- The reflected generator polynomial. -/
def polynomial : BitVec 32 := 0xEDB88320

/-- One division step of the register. -/
def bitStep (register : BitVec 32) : BitVec 32 :=
  if register.getLsbD 0 then (register >>> 1) ^^^ polynomial else register >>> 1

/-- Several division steps of the register. -/
def bitSteps : Nat → BitVec 32 → BitVec 32
  | 0, register => register
  | n + 1, register => bitSteps n (bitStep register)

/-- The register after taking in one byte. -/
def byteStep (register : BitVec 32) (byte : UInt8) : BitVec 32 :=
  bitSteps 8 (register ^^^ byte.toBitVec.setWidth 32)

/-- The register after taking in a string of bytes. -/
def scan (register : BitVec 32) (bytes : Bytes) : BitVec 32 :=
  bytes.foldl byteStep register

/-- The check of a string of bytes. -/
def compute (bytes : Bytes) : BitVec 32 :=
  ~~~ scan (BitVec.allOnes 32) bytes

/-- The number of bytes of the check at the end of a record. -/
def width : Nat := 4

/-- A payload followed by its check. -/
def sealed (payload : Bytes) : Bytes :=
  payload ++ LittleEndian.encode width (compute payload).toNat

/-- The part of a record before its check. -/
def payload (record : Bytes) : Bytes :=
  record.take (record.length - width)

/-- The number in the last four bytes of a record. -/
def stored (record : Bytes) : Nat :=
  LittleEndian.decode (record.drop (record.length - width))

/-- A record is accepted when it is longer than its check and ends with the check of the rest. -/
def verify (record : Bytes) : Bool :=
  decide (width < record.length) && decide ((compute (payload record)).toNat = stored record)

/-- The record with its last four bytes replaced by the check of the rest. -/
def update (record : Bytes) : Bytes :=
  sealed (payload record)

@[simp]
theorem length_sealed (bytes : Bytes) : (sealed bytes).length = bytes.length + 4 := by
  simp [sealed, width]

private theorem payload_sealed (bytes : Bytes) : payload (sealed bytes) = bytes := by
  simp [payload, sealed, width]

private theorem stored_sealed (bytes : Bytes) : stored (sealed bytes) = (compute bytes).toNat := by
  have h := (compute bytes).isLt
  simp only [stored, sealed, List.length_append, LittleEndian.length_encode, Nat.add_sub_cancel, List.drop_left,
    LittleEndian.decode_encode, width]
  exact Nat.mod_eq_of_lt h

/-- A sealed record is accepted unless its payload is empty. -/
theorem verify_sealed {bytes : Bytes} (h : bytes ≠ []) : verify (sealed bytes) = true := by
  have hl := List.length_pos_iff.2 h
  simp [verify, payload_sealed, stored_sealed, width]
  omega

example : verify [0x31, 0x32, 0x33, 0x34, 0x35, 0x36, 0x37, 0x38, 0x39, 0x26, 0x39, 0xF4, 0xCB] = true := by
  decide +kernel

end Checksum

end Spacecraft
