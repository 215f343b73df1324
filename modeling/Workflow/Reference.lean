import Workflow.Json.Basic

/-!
# References

A reference stands for a value that only the service knows. On the wire it is an object with the
one key `Get` and a path: to a parameter, to an output of a step, or to a variable of the run.

* `getExpression`      the wire form of a path;
* `Property`           a place in the output of a step, reached from its root by `Hop`s;
* `RunVariable`        what the service knows of a run, by name.
-/

namespace Workflow

def getExpression (path : String) : Json := .object [("Get", .string path)]

structure Property where
  path : String
deriving DecidableEq, Repr

/-- one step further into an output -/
inductive Hop where
  | field (name : String)
  | item (index : Nat)
  | entry (key : String)
deriving DecidableEq, Repr

def Hop.text : Hop → String
  | field name => "." ++ name
  | item index => "[" ++ String.ofList (Nat.toDigits 10 index) ++ "]"
  | entry key => "['" ++ key ++ "']"

namespace Property

/-- the whole output of the step of that name -/
def ofStep (name : String) : Property := ⟨"Steps." ++ name⟩

def hop (p : Property) (h : Hop) : Property := ⟨p.path ++ h.text⟩

def follow (p : Property) (hops : List Hop) : Property := hops.foldl hop p

def expression (p : Property) : Json := getExpression p.path

end Property

inductive RunVariable where
  | startDateTime
  | currentDateTime
  | pipelineName
  | pipelineArn
  | pipelineExecutionId
  | pipelineExecutionArn
deriving DecidableEq, Repr

namespace RunVariable

def all : List RunVariable :=
  [startDateTime, currentDateTime, pipelineName, pipelineArn, pipelineExecutionId,
    pipelineExecutionArn]

def name : RunVariable → String
  | startDateTime => "StartDateTime"
  | currentDateTime => "CurrentDateTime"
  | pipelineName => "PipelineName"
  | pipelineArn => "PipelineArn"
  | pipelineExecutionId => "PipelineExecutionId"
  | pipelineExecutionArn => "PipelineExecutionArn"

def ofName? (s : String) : Option RunVariable := all.find? fun v => v.name == s

def expression (v : RunVariable) : Json := getExpression ("Execution." ++ v.name)

theorem mem_all (v : RunVariable) : v ∈ all := by cases v <;> decide

theorem name_injective {v w : RunVariable} (h : v.name = w.name) : v = w := by
  cases v <;> cases w <;> first | rfl | exact absurd h (by decide)

/-- a name is found exactly if it is the name of a variable -/
theorem ofName?_eq_some_iff {s : String} {v : RunVariable} : ofName? s = some v ↔ v.name = s := by
  constructor
  · intro h
    simpa using List.find?_some h
  · rintro rfl
    cases v <;> rfl

end RunVariable

end Workflow
