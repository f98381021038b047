import Spacecraft.Clock.Bench
import Spacecraft.Computer.Commands
import Spacecraft.Config.Document
import Spacecraft.Experiment.Passes
import Spacecraft.Experiment.Scripted
import Spacecraft.Mission.Bench
import Spacecraft.Signal.EventWord
import Spacecraft.Signal.Pulse
import Spacecraft.Storage.Schedule
import Spacecraft.Storage.Tree
import Spacecraft.Proofs.Clock.Run
import Spacecraft.Proofs.Fault.Crossing
import Spacecraft.Proofs.Fault.Escalation
import Spacecraft.Proofs.Clock.Cadence
import Spacecraft.Proofs.Clock.Durability
import Spacecraft.Proofs.Settings.BadChip
import Spacecraft.Proofs.Settings.MissedWrites
import Spacecraft.Proofs.Antenna.Run
import Spacecraft.Proofs.Antenna.Plan
import Spacecraft.Proofs.Antenna.Onboard
import Spacecraft.Proofs.Antenna.Blind
import Spacecraft.Proofs.Experiment.Interleaving
import Spacecraft.Proofs.Experiment.Turns
import Spacecraft.Proofs.Experiment.Runs
import Spacecraft.Proofs.Experiment.Ending
import Spacecraft.Proofs.Experiment.Passes
import Spacecraft.Proofs.Experiment.Pacing
import Spacecraft.Proofs.Experiment.Operations
import Spacecraft.Proofs.Experiment.Schedules
import Spacecraft.Proofs.Experiment.Requests
import Spacecraft.Proofs.Clock.Concurrent
import Spacecraft.Proofs.Clock.Rollback
import Spacecraft.Proofs.Clock.NotAhead
import Spacecraft.Proofs.Sail.Run
import Spacecraft.Proofs.Sail.Plan
import Spacecraft.Proofs.Sail.Knives
import Spacecraft.Proofs.Sail.Onboard
import Spacecraft.Proofs.Sail.Reboot
import Spacecraft.Proofs.Settings.MaskVote
import Spacecraft.Proofs.Antenna.Memory
import Spacecraft.Proofs.Mission.Hooks
import Spacecraft.Proofs.Mission.Admission
import Spacecraft.Proofs.Clock.Restart
import Spacecraft.Proofs.Computer.Steady
import Spacecraft.Proofs.Experiment.Preserving
import Spacecraft.Proofs.Computer.Reboot
import Spacecraft.Proofs.Fault.Unmasking
import Spacecraft.Proofs.Checksum.Bursts
import Spacecraft.Proofs.Settings.Canonical
import Spacecraft.Proofs.Telemetry.Rotation
import Spacecraft.Proofs.Clock.Calendar
import Spacecraft.Proofs.Clock.Correction
import Spacecraft.Proofs.Clock.Vote
import Spacecraft.Proofs.Clock.Overflow
import Spacecraft.Proofs.Antenna.Verdicts
import Spacecraft.Proofs.Redundancy.Access
import Spacecraft.Proofs.Antenna.Published
import Spacecraft.Proofs.Experiment.Fibonacci
import Spacecraft.Proofs.Telemetry.Codec
import Spacecraft.Proofs.Storage.Failures
import Spacecraft.Proofs.Config.Documents
