import Spacecraft.Antenna.Driver

/-!
# Controllers on the test bench

Controllers that answer as told and keep a list of what was asked of them.
-/

namespace Spacecraft

/-- One call to a controller. -/
inductive AntennaCall where
  | command (channel : Channel) (command : AntennaCommand)
  | status (channel : Channel)
deriving DecidableEq

/-- How one controller answers. -/
structure BenchChannel where
  status : Except DeviceError AntennaStatus
  commandError : Option DeviceError

/-- Both controllers and the calls made to them, latest first. -/
structure AntennaBench where
  calls : List AntennaCall
  primary : BenchChannel
  backup : BenchChannel

namespace AntennaBench

/-- A controller with nothing deployed that takes every command. -/
def channelInitial : BenchChannel := ⟨.ok .initial, none⟩

/-- Two fresh controllers. -/
def fresh : AntennaBench := ⟨[], channelInitial, channelInitial⟩

/-- How the controller of a channel answers. -/
def channel (bench : AntennaBench) : Channel → BenchChannel
  | .primary => bench.primary
  | .backup => bench.backup

/-- Change how the controller of a channel answers. -/
def modifyChannel (channel : Channel) (f : BenchChannel → BenchChannel) (bench : AntennaBench) : AntennaBench :=
  match channel with
  | .primary => { bench with primary := f bench.primary }
  | .backup => { bench with backup := f bench.backup }

/-- Let a controller report a status. -/
def setStatus (channel : Channel) (status : AntennaStatus) : AntennaBench → AntennaBench :=
  modifyChannel channel fun c => { c with status := .ok status }

/-- Let status queries of a controller fail. -/
def failStatus (channel : Channel) (error : DeviceError) : AntennaBench → AntennaBench :=
  modifyChannel channel fun c => { c with status := .error error }

/-- Let commands to a controller fail, or succeed again. -/
def failCommands (channel : Channel) (error : Option DeviceError) : AntennaBench → AntennaBench :=
  modifyChannel channel fun c => { c with commandError := error }

/-- The calls in order. -/
def callsInOrder (bench : AntennaBench) : List AntennaCall := bench.calls.reverse

/-- A call is a command. -/
def isCommand : AntennaCall → Bool
  | .command _ _ => true
  | .status _ => false

/-- The commands in order. -/
def commandsInOrder (bench : AntennaBench) : List AntennaCall := bench.callsInOrder.filter isCommand

/-- Forget the calls. -/
def clearCalls (bench : AntennaBench) : AntennaBench := { bench with calls := [] }

/-- Note a call. -/
def note (call : AntennaCall) (bench : AntennaBench) : AntennaBench := { bench with calls := call :: bench.calls }

instance : AntennaDriver AntennaBench where
  perform channel command bench :=
    let result := match (bench.channel channel).commandError with
      | some error => .error error
      | none => .ok ()
    (result, [], bench.note (.command channel command))
  status channel bench := ((bench.channel channel).status, [], bench.note (.status channel))

end AntennaBench

end Spacecraft
