import Spacecraft.Computer.Basic

/-!
# The threads of the computer

The mission thread runs passes and the experiment thread runs experiments.  `settle` lets both run until they block,
which is how the computer is found whenever nothing new is asked of it.
-/

namespace Spacecraft

namespace Computer

/-- The experiments of the computer. -/
def laboratory : Laboratory ExperimentBay where
  experiments :=
    [Fibonacci.experiment (fun bay => (bay.fibonacci, bay.files)) fun (fibonacci, files) bay =>
      { bay with fibonacci, files }]
  record result bay := { bay with metrics := bay.metrics.recordRun result }

/-- The experiment thread with what it works on. -/
def host (c : Computer) : ExperimentHost ExperimentBay :=
  ⟨c.experiments, c.experimentThread, ⟨c.fibonacci, c.files, c.metrics⟩⟩

/-- Take back what the experiment thread worked on. -/
def withHost (host : ExperimentHost ExperimentBay) (c : Computer) : Computer :=
  { c with
    experiments := host.controller
    experimentThread := host.thread
    fibonacci := host.world.fibonacci
    files := host.world.files
    metrics := host.world.metrics }

/-- More steps than the experiment thread takes before it blocks. -/
def experimentSteps : Nat := 1000

/-- More steps than the mission thread takes before it blocks. -/
def missionSteps : Nat := 1000

/-- Let the experiment thread run until it blocks. -/
def settleExperiments (c : Computer) : Computer := c.withHost (c.host.settle laboratory experimentSteps)

/-- One mission pass, after which the experiment thread runs until it blocks. -/
def runOnce (c : Computer) : PassSummary × Computer :=
  let (summary, c) := c.pass
  (summary, c.settleExperiments)

/-- Several passes in a row. -/
def runMany : Nat → Computer → List PassSummary × Computer
  | 0, c => ([], c)
  | n + 1, c =>
    let (summary, c) := c.runOnce
    let (rest, c) := runMany n c
    (summary :: rest, c)

/-- Let the mission thread run until it blocks. -/
def settleMission (c : Computer) : Computer :=
  let (missionThread, control, c) :=
    MissionThread.settle (fun c => c.runOnce.2) missionSteps c.missionThread c.control c
  { c with missionThread, control }

/-- Let both threads run until they block. -/
def settle (c : Computer) : Computer := c.settleExperiments.settleMission

/-- Start both threads. -/
def startThreads (c : Computer) : Computer :=
  { c with experimentThread := .receiving, missionThread := .waiting }

/-- The threads were started and not stopped since. -/
def threadsRun (c : Computer) : Bool := c.experimentThread.wasSpawned && !c.experimentThread.hasEnded

/-- Stop the mission thread, then the experiment thread. -/
def stopThreads (c : Computer) : Computer :=
  let c := { c with control := c.control.shutDown }.settleMission
  { c with experiments := c.experiments.shutDown }.settleExperiments

/-- Stop the threads and start a new computer on the same hardware. -/
def reboot (config : MissionConfig) (c : Computer) : Computer :=
  boot (if c.threadsRun then c.stopThreads else c).hardware config

end Computer

end Spacecraft
