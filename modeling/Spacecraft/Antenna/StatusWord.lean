import Spacecraft.Antenna.Basic
import Spacecraft.Fault.DeviceError

/-!
# The status word of a controller

Sixteen bits, least byte first on the bus.  A deployed antenna clears its bit, a burning one sets its own; a reading
that the controller itself calls invalid is refused.
-/

namespace Spacecraft

namespace StatusWord

/-- A bit of the word is set. -/
def bit (word : UInt16) (i : Nat) : Bool := word.toBitVec.getLsbD i

/-- The bit by which the controller calls its reading invalid. -/
def invalid (word : UInt16) : Bool := bit word 12

/-- The antennas whose release switch reports them out. -/
def deployed (word : UInt16) : AntennaFlags := ⟨!bit word 15, !bit word 11, !bit word 7, !bit word 3⟩

/-- The antennas whose burn circuit is on. -/
def active (word : UInt16) : AntennaFlags := ⟨bit word 13, bit word 9, bit word 5, bit word 1⟩

/-- The status in a word. -/
def decode (word : UInt16) : Except DeviceError AntennaStatus :=
  if invalid word then .error .outOfRange
  else .ok ⟨deployed word, active word, bit word 8, bit word 0⟩

end StatusWord

end Spacecraft
