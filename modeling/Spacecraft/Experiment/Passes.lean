import Spacecraft.Experiment.Thread
import Spacecraft.Mission.Pass

/-!
# Mission passes around the experiment thread

The part of a mission pass that concerns experiments: an action that hands a request over, an action that lets a
waiting experiment go on, and the notification at the end of the pass.
-/

namespace Spacecraft

namespace ExperimentHost

variable {σ : Type}

/-- Hand a request to the thread. -/
def startAction : ActionHook (ExperimentHost σ) Unit where
  name := ExperimentController.startActionName
  condition _ host := .ofBool host.controller.startCondition
  execute _ host := (.done, host.control ExperimentController.start)

/-- Let a waiting experiment go on. -/
def kickAction : ActionHook (ExperimentHost σ) Unit where
  name := ExperimentController.kickActionName
  condition _ host := .ofBool host.controller.kickCondition
  execute _ host := (.done, host.control ExperimentController.kick)

/-- Wait in the middle of a pass until the thread blocks. -/
def settleAction (name : String) (lab : Laboratory σ) (limit : Nat) : ActionHook (ExperimentHost σ) Unit where
  name := name
  condition _ _ := .holds
  execute _ host := (.done, host.settle lab limit)

/-- A mission loop that consists of actions on experiments; the controller may observe the end of the pass. -/
def missionLoop (actions : List (ActionHook (ExperimentHost σ) Unit)) (observing : Bool) :
    MissionLoop (ExperimentHost σ) Unit where
  initial := ()
  updates := []
  actions := actions
  notify host := if observing then host.control ExperimentController.notifyPass else host
  record _ host := host

end ExperimentHost

end Spacecraft
