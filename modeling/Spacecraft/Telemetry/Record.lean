import Spacecraft.LittleEndian
import Spacecraft.Snapshot

/-!
# Telemetry records

A summary of the snapshot in 32 bytes: time, boot index, antennas, sail, attitude, all error counters and a spare byte.
-/

namespace Spacecraft

/-- A summary of a snapshot. -/
structure TelemetryRecord where
  time : UInt64
  bootIndex : UInt32
  /-- Bit `i` is antenna `i + 1`; the highest bit says that all are out. -/
  antenna : UInt8
  sailOpened : UInt8
  sailAttempts : UInt8
  attitude : UInt8
  counters : DeviceTable UInt8
  spare : UInt8
deriving DecidableEq

namespace TelemetryRecord

/-- The number of bytes of a record. -/
def length : Nat := 32

/-- The bit that says that all antennas are out. -/
def deployedBit : UInt8 := 0x80

/-- The summary of a snapshot and the error counters. -/
def ofSnapshot (snapshot : Snapshot) (counters : DeviceTable UInt8) : TelemetryRecord where
  time := snapshot.time.millis64
  bootIndex := snapshot.settings.bootIndex
  antenna := snapshot.antennas.toMask ||| (if snapshot.antennasDeployed then deployedBit else 0)
  sailOpened := if snapshot.sailOpened then 1 else 0
  sailAttempts := snapshot.sailAttempts
  attitude := snapshot.attitude.code
  counters := counters
  spare := 0

/-- A record as bytes. -/
def encode (record : TelemetryRecord) : Bytes :=
  LittleEndian.encode 8 record.time.toNat ++ LittleEndian.encode 4 record.bootIndex.toNat ++
    [record.antenna, record.sailOpened, record.sailAttempts, record.attitude] ++ record.counters.toList ++
    [record.spare]

/-- The record in at least 32 bytes. -/
def decode (bytes : Bytes) : TelemetryRecord where
  time := UInt64.ofNat (LittleEndian.decode (bytes.take 8))
  bootIndex := UInt32.ofNat (LittleEndian.decode ((bytes.drop 8).take 4))
  antenna := bytes[12]?.getD 0
  sailOpened := bytes[13]?.getD 0
  sailAttempts := bytes[14]?.getD 0
  attitude := bytes[15]?.getD 0
  counters := DeviceTable.ofFn fun device => bytes[16 + device.index.val]?.getD 0
  spare := bytes[31]?.getD 0

/-- The record in the first 32 bytes, if there are as many. -/
def parse (bytes : Bytes) : Option TelemetryRecord :=
  if bytes.length < length then none else some (decode bytes)

/-- The records in consecutive pieces of 32 bytes; a short last piece holds none. -/
def parseAll (bytes : Bytes) : List (Option TelemetryRecord) :=
  match bytes with
  | [] => []
  | b :: rest => parse (b :: rest) :: parseAll (rest.drop (length - 1))
termination_by bytes.length
decreasing_by simp only [List.length_drop, List.length_cons]; omega

@[simp]
theorem length_encode (record : TelemetryRecord) : record.encode.length = length := by
  simp [encode, length]

end TelemetryRecord

end Spacecraft
