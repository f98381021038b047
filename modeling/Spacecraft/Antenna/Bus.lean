import Spacecraft.Fault.DeviceError
import Spacecraft.LittleEndian

/-!
# A two-wire bus

A bus that keeps every transaction, fails the next ones as told and answers queries from a queue.  A failed
transaction leaves the queue of answers alone; without an answer a query reads zeros.
-/

namespace Spacecraft

/-- Why a bus transaction failed. -/
inductive BusError where
  | nack
  | busError
  | arbitrationLost
  | timeout
  | clockLatched
  | clockAlreadyLatched
  | failure
deriving DecidableEq, Inhabited, Repr

namespace BusError

/-- All reasons. -/
def all : List BusError := [nack, busError, arbitrationLost, timeout, clockLatched, clockAlreadyLatched, failure]

/-- The short name of an error. -/
def kind : BusError → String
  | nack => "Nack"
  | busError => "BusError"
  | arbitrationLost => "ArbitrationLost"
  | timeout => "Timeout"
  | clockLatched => "ClockLatched"
  | clockAlreadyLatched => "ClockAlreadyLatched"
  | failure => "Failure"

/-- The words in which an error is reported. -/
def message : BusError → String
  | nack => "device did not acknowledge"
  | busError => "bus error"
  | arbitrationLost => "arbitration lost"
  | timeout => "transaction timed out"
  | clockLatched => "clock line latched low"
  | clockAlreadyLatched => "clock line was already latched"
  | failure => "bus failure"

/-- What a driver makes of a failed transaction. -/
def toDeviceError : BusError → DeviceError
  | timeout => .timeout
  | clockAlreadyLatched => .protocol
  | nack | busError | arbitrationLost | clockLatched | failure => .io

end BusError

/-- The transactions of a bus and what comes next on it. -/
structure Bus where
  /-- Addresses and payloads of all writes, latest first. -/
  writes : List (UInt8 × Bytes)
  /-- Addresses and payloads of all queries, latest first. -/
  queries : List (UInt8 × Bytes)
  responses : List Bytes
  failures : List BusError
deriving DecidableEq

namespace Bus

/-- A bus without history. -/
def idle : Bus := ⟨[], [], [], []⟩

/-- Queue an answer. -/
def respond (response : Bytes) (bus : Bus) : Bus := { bus with responses := bus.responses ++ [response] }

/-- Let the next transaction fail. -/
def failNext (error : BusError) (bus : Bus) : Bus := { bus with failures := bus.failures ++ [error] }

/-- Send bytes to an address. -/
def write (address : UInt8) (payload : Bytes) (bus : Bus) : Except BusError Unit × Bus :=
  let noted := { bus with writes := (address, payload) :: bus.writes }
  match bus.failures with
  | [] => (.ok (), noted)
  | error :: rest => (.error error, { noted with failures := rest })

/-- An answer cut or filled with zeros to a length. -/
def fit (length : Nat) (response : Bytes) : Bytes :=
  response.take length ++ List.replicate (length - response.length) 0

/-- Send bytes to an address and read an answer of a given length. -/
def query (address : UInt8) (payload : Bytes) (length : Nat) (bus : Bus) : Except BusError Bytes × Bus :=
  let noted := { bus with queries := (address, payload) :: bus.queries }
  match bus.failures with
  | error :: rest => (.error error, { noted with failures := rest })
  | [] => (.ok (fit length (bus.responses.head?.getD [])), { noted with responses := bus.responses.tail })

end Bus

end Spacecraft
