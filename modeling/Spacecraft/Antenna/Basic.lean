import Spacecraft.Duration
import Spacecraft.Fault.Device

/-!
# Antennas and their controllers

Four antennas are released by either of two controllers, the channels.  A controller takes commands and reports which
antennas are out and which burn circuits are on.
-/

namespace Spacecraft

/-- One of the two controllers. -/
inductive Channel where
  | primary
  | backup
deriving DecidableEq, Inhabited, Repr

/-- Both controllers. -/
def Channel.all : List Channel := [.primary, .backup]

/-- The name of a controller. -/
def Channel.name : Channel → String
  | .primary => "primary"
  | .backup => "backup"

/-- The bus address of a controller. -/
def Channel.address : Channel → UInt8
  | .primary => 0x32
  | .backup => 0x34

/-- The device under which a controller is supervised. -/
def Channel.device : Channel → Device
  | .primary => .antennaPrimary
  | .backup => .antennaBackup

/-- What a deployment command is about: one antenna, or all of them in sequence. -/
inductive Antenna where
  | auto
  | antenna1
  | antenna2
  | antenna3
  | antenna4
deriving DecidableEq, Inhabited, Repr

namespace Antenna

/-- All arguments of a deployment command, by their number. -/
def all : List Antenna := [auto, antenna1, antenna2, antenna3, antenna4]

/-- The number of an antenna in commands. -/
def code : Antenna → UInt8
  | auto => 0
  | antenna1 => 1
  | antenna2 => 2
  | antenna3 => 3
  | antenna4 => 4

/-- The place of an antenna in status tables. -/
def slot? : Antenna → Option (Fin 4)
  | auto => none
  | antenna1 => some 0
  | antenna2 => some 1
  | antenna3 => some 2
  | antenna4 => some 3

end Antenna

/-- A truth value for each of the four antennas. -/
structure AntennaFlags where
  one : Bool
  two : Bool
  three : Bool
  four : Bool
deriving DecidableEq, Repr

namespace AntennaFlags

/-- False for every antenna. -/
def none : AntennaFlags := ⟨false, false, false, false⟩

/-- True for every antenna. -/
def full : AntennaFlags := ⟨true, true, true, true⟩

/-- The values in the order of the antennas. -/
def toList (flags : AntennaFlags) : List Bool := [flags.one, flags.two, flags.three, flags.four]

/-- The value of the antenna in a slot. -/
def get (flags : AntennaFlags) : Fin 4 → Bool
  | 0 => flags.one
  | 1 => flags.two
  | 2 => flags.three
  | 3 => flags.four

/-- True for all antennas. -/
def all (flags : AntennaFlags) : Bool := flags.one && flags.two && flags.three && flags.four

/-- True for some antenna. -/
def any (flags : AntennaFlags) : Bool := flags.one || flags.two || flags.three || flags.four

/-- True where either is true. -/
def union (a b : AntennaFlags) : AntennaFlags :=
  ⟨a.one || b.one, a.two || b.two, a.three || b.three, a.four || b.four⟩

/-- Bit `i` stands for antenna `i + 1`. -/
def toMask (flags : AntennaFlags) : UInt8 :=
  (if flags.one then 1 else 0) ||| (if flags.two then 2 else 0) ||| (if flags.three then 4 else 0) |||
    (if flags.four then 8 else 0)

end AntennaFlags

/-- What a controller reports about itself. -/
structure AntennaStatus where
  deployed : AntennaFlags
  /-- The burn circuit of the antenna is on. -/
  active : AntennaFlags
  ignoringSwitches : Bool
  armed : Bool
deriving DecidableEq, Repr

/-- Nothing deployed, nothing on. -/
def AntennaStatus.initial : AntennaStatus := ⟨.none, .none, false, false⟩

/-- What a controller can be told to do. -/
inductive AntennaCommand where
  | reset
  | arm
  | disarm
  | deploy (antenna : Antenna) (timeout : Duration) (ignoreSwitch : Bool)
  | startAuto (timeout : Duration)
  | cancel
deriving DecidableEq

end Spacecraft
