import Workflow.Json.Style

/-!
# What can be wrong with a definition

* `ValueKind`          the data type of a parameter and the JSON values it accepts;
* `DefinitionError`    the ways a parameter or a pipeline is refused, and their wording.
-/

namespace Workflow

inductive ValueKind where
  | string
  | integer
  | float
deriving DecidableEq, Repr

namespace ValueKind

def all : List ValueKind := [string, integer, float]

def name : ValueKind → String
  | string => "String"
  | integer => "Integer"
  | float => "Float"

def ofName? (s : String) : Option ValueKind := all.find? fun k => k.name == s

/-- the values of a kind; an integer is a float too -/
def accepts : ValueKind → Json → Bool
  | string, .string _ => true
  | integer, .number n => n.isInteger
  | float, .number _ => true
  | _, _ => false

theorem ofName?_eq_some_iff {s : String} {k : ValueKind} : ofName? s = some k ↔ k.name = s := by
  constructor
  · intro h
    simpa using List.find?_some h
  · rintro rfl
    cases k <;> rfl

end ValueKind

inductive DefinitionError where
  | emptyParameterName
  | invalidDefault (name : String) (kind : ValueKind) (actual : Json)
  | duplicateParameter (name : String)
  | emptyPipelineName

def DefinitionError.message : DefinitionError → String
  | emptyParameterName => "Parameter name must not be empty"
  | invalidDefault name kind actual =>
    "Parameter '" ++ name ++ "' expects a " ++ kind.name ++ " default value, got " ++ actual.compact
  | duplicateParameter name => "Duplicate parameter name: " ++ name
  | emptyPipelineName => "Pipeline name must not be empty"

end Workflow
