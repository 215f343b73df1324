import Workflow.Record.Basic
import Workflow.Step.Basic

/-!
# Configurations

A configuration is a pipeline as it is written in a file: everything is plain data, and references
are strings.

* `ParameterSpec`, `StepSpec`   a parameter and a step as they are written;
* `Configuration`               the whole file;
* `Configuration.reading`       a configuration from JSON data;
* `Configuration.toJson`        its JSON form, with null for what is not given.
-/

namespace Workflow

open Record (Members Reading)

def ValueKind.reading : Reading ValueKind := Record.choice (ValueKind.all.map fun k => (k.name, k))

def StepKind.reading : Reading StepKind := Record.choice (StepKind.all.map fun k => (k.name, k))

structure ParameterSpec where
  name : String
  kind : ValueKind
  default? : Option Json.Keyed

namespace ParameterSpec

def members : Members ParameterSpec :=
  .pure ParameterSpec.mk <*> .required "name" Record.text <*> .required "type" ValueKind.reading <*>
    .optional "default" Record.json

def reading : Reading ParameterSpec := members.reading "ParameterConfig"

def toJson (p : ParameterSpec) : Json :=
  .object [("name", .string p.name), ("type", .string p.kind.name),
    ("default", p.default?.elim .null Subtype.val)]

end ParameterSpec

structure StepSpec where
  name : String
  /-- the name of a kind of steps, if it is one -/
  kind : String
  arguments : Json.Keyed

namespace StepSpec

def members : Members StepSpec :=
  .pure StepSpec.mk <*> .required "name" Record.text <*> .required "type" Record.text <*>
    .fallback "arguments" Record.json (.object [])

def reading : Reading StepSpec := members.reading "StepConfig"

def toJson (s : StepSpec) : Json :=
  .object [("name", .string s.name), ("type", .string s.kind), ("arguments", s.arguments)]

end StepSpec

structure Configuration where
  name : String
  description? : Option String
  metadata : Json.KeyedFields
  parameters : List ParameterSpec
  steps : List StepSpec

namespace Configuration

def members : Members Configuration :=
  .pure Configuration.mk <*> .required "name" Record.text <*>
    .optional "description" Record.text <*> .fallback "metadata" Record.map (.ofPairs []) <*>
    .fallback "parameters" (Record.list ParameterSpec.reading) [] <*>
    .required "steps" (Record.list StepSpec.reading)

def reading : Reading Configuration := members.reading "PipelineConfig"

def toJson (c : Configuration) : Json :=
  .object [("name", .string c.name),
    ("description", match c.description? with
      | none => .null
      | some d => .string d),
    ("metadata", .object c.metadata),
    ("parameters", .array (c.parameters.map ParameterSpec.toJson)),
    ("steps", .array (c.steps.map StepSpec.toJson))]

end Configuration

end Workflow
