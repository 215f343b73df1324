import Workflow.Record.Basic

/-!
# Statuses

How far a run, or one step of it, has come. A status is final if it will not change any more.

* `RunStatus`, `StepStatus`   the statuses by the names the service gives them;
* `isFinal`                   stopped, failed or succeeded.
-/

namespace Workflow.Service

inductive RunStatus where
  | executing
  | stopping
  | stopped
  | failed
  | succeeded
deriving DecidableEq, Repr

namespace RunStatus

def name : RunStatus → String
  | executing => "Executing"
  | stopping => "Stopping"
  | stopped => "Stopped"
  | failed => "Failed"
  | succeeded => "Succeeded"

def choices : List (String × RunStatus) :=
  [executing, stopping, stopped, failed, succeeded].map fun s => (s.name, s)

def isFinal : RunStatus → Bool
  | stopped | failed | succeeded => true
  | executing | stopping => false

def reading : Record.Reading RunStatus := Record.choice choices

def toJson (s : RunStatus) : Json := .string s.name

theorem reading_toJson (s : RunStatus) : reading s.toJson = .ok s := by cases s <;> rfl

end RunStatus

inductive StepStatus where
  | starting
  | executing
  | stopping
  | stopped
  | failed
  | succeeded
deriving DecidableEq, Repr

namespace StepStatus

def name : StepStatus → String
  | starting => "Starting"
  | executing => "Executing"
  | stopping => "Stopping"
  | stopped => "Stopped"
  | failed => "Failed"
  | succeeded => "Succeeded"

def choices : List (String × StepStatus) :=
  [starting, executing, stopping, stopped, failed, succeeded].map fun s => (s.name, s)

def isFinal : StepStatus → Bool
  | stopped | failed | succeeded => true
  | starting | executing | stopping => false

def reading : Record.Reading StepStatus := Record.choice choices

def toJson (s : StepStatus) : Json := .string s.name

theorem reading_toJson (s : StepStatus) : reading s.toJson = .ok s := by cases s <;> rfl

end StepStatus

end Workflow.Service
