/-!
# Pulses

A pulse releases the threads that wait at the moment it fires and is not remembered.
-/

namespace Spacecraft

/-- The number of pulses so far. -/
structure Pulse where
  fired : Nat
deriving DecidableEq

namespace Pulse

/-- No pulse yet. -/
def silent : Pulse := ⟨0⟩

/-- Release all waiting threads. -/
def fire (pulse : Pulse) : Pulse := ⟨pulse.fired + 1⟩

/-- A thread that began to wait at `entry` is released. -/
def releases (pulse entry : Pulse) : Bool := pulse.fired != entry.fired

/-- What a wait answers when nothing fires before its time runs out. -/
def waitAlone (pulse : Pulse) : Bool := pulse.releases pulse

/-- What `n` threads answer that wait while one pulse fires, and the pulse afterwards. -/
def release (n : Nat) (pulse : Pulse) : List Bool × Pulse :=
  (List.replicate n (pulse.fire.releases pulse), pulse.fire)

end Pulse

end Spacecraft
