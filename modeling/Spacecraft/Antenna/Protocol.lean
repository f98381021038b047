import Spacecraft.Antenna.Bus
import Spacecraft.Antenna.Driver
import Spacecraft.Antenna.StatusWord

/-!
# The antenna protocol

How commands and queries look on the bus, and the driver that speaks the protocol.  Every operation is one bus
transaction and makes one report when it ends, of the steps that were watched on the way: the transfer itself and, where
an answer came, what was found when it was read.
-/

namespace Spacecraft

namespace AntennaProtocol

/-- The distance from a deployment code to the code that ignores the release switch. -/
def ignoreSwitchOffset : UInt8 := 0x19

/-- The code of a deployment command. -/
def deployOpcode (antenna : Antenna) (ignoreSwitch : Bool) : UInt8 :=
  0xa0 + antenna.code + (if ignoreSwitch then ignoreSwitchOffset else 0)

/-- A time limit in whole seconds, at most 255. -/
def timeoutByte (timeout : Duration) : UInt8 := UInt8.ofNat (min timeout.seconds 255)

/-- A command as sent on the bus. -/
def payload : AntennaCommand → Bytes
  | .reset => [0xaa]
  | .arm => [0xad]
  | .disarm => [0xac]
  | .deploy antenna timeout ignoreSwitch => [deployOpcode antenna ignoreSwitch, timeoutByte timeout]
  | .startAuto timeout => [0xa5, timeoutByte timeout]
  | .cancel => [0xa9]

/-- What a controller can be asked. -/
inductive Query where
  | activationCount (antenna : Antenna)
  | activationTime (antenna : Antenna)
  | temperature
  | status
deriving DecidableEq, Repr

namespace Query

/-- The code of a query. -/
def opcode : Query → UInt8
  | activationCount antenna => 0xaf + antenna.code
  | activationTime antenna => 0xb3 + antenna.code
  | temperature => 0xc0
  | status => 0xc3

/-- The number of bytes of the answer. -/
def length : Query → Nat
  | activationCount _ => 1
  | activationTime _ | temperature | status => 2

end Query

/-- What is made of an answer, and the steps that were watched while it was read, each good or bad. -/
abbrev Reading (α : Type) := Except DeviceError α × List Bool

/-- The number of activations in an answer. -/
def readCount (answer : Bytes) : Reading UInt8 := (.ok (answer.headD 0), [])

/-- A two-byte number, greatest byte first. -/
def bigEndian (answer : Bytes) : Nat := LittleEndian.decode answer.reverse

/-- The time spent burning in an answer, counted in steps of fifty milliseconds. -/
def readTime (answer : Bytes) : Reading Duration :=
  (.ok (.ofMillis (UInt64.ofNat (50 * bigEndian answer))), [])

/-- The ten-bit temperature in an answer; a larger number is refused. -/
def readTemperature (answer : Bytes) : Reading Nat :=
  if 1024 ≤ bigEndian answer then (.error .outOfRange, [false]) else (.ok (bigEndian answer), [])

/-- The status in an answer. -/
def readStatus (answer : Bytes) : Reading AntennaStatus :=
  let status := StatusWord.decode (UInt16.ofNat (LittleEndian.decode answer))
  (status, [status.toBool])

/-- Send a command. -/
def send (channel : Channel) (command : AntennaCommand) (bus : Bus) : Except DeviceError Unit × List Report × Bus :=
  let (outcome, bus) := bus.write channel.address (payload command)
  let result := outcome.mapError BusError.toDeviceError
  (result, [Counters.summarize channel.device [result.toBool]], bus)

/-- Send a query and make sense of the answer. -/
def ask {α : Type} (channel : Channel) (query : Query) (read : Bytes → Reading α) (bus : Bus) :
    Except DeviceError α × List Report × Bus :=
  let (outcome, bus) := bus.query channel.address [query.opcode] query.length
  match outcome.mapError BusError.toDeviceError with
  | .error error => (.error error, [Counters.summarize channel.device [false]], bus)
  | .ok answer =>
    let (result, steps) := read answer
    (result, [Counters.summarize channel.device (true :: steps)], bus)

/-- How often the burn circuit of an antenna was switched on. -/
def activationCount (channel : Channel) (antenna : Antenna) (bus : Bus) :=
  ask channel (.activationCount antenna) readCount bus

/-- How long the burn circuit of an antenna has been on. -/
def activationTime (channel : Channel) (antenna : Antenna) (bus : Bus) :=
  ask channel (.activationTime antenna) readTime bus

/-- The temperature reading of a controller. -/
def temperature (channel : Channel) (bus : Bus) :=
  ask channel .temperature readTemperature bus

/-- The status of a controller. -/
def status (channel : Channel) (bus : Bus) :=
  ask channel .status readStatus bus

end AntennaProtocol

instance : AntennaDriver Bus where
  perform := AntennaProtocol.send
  status := AntennaProtocol.status

end Spacecraft
