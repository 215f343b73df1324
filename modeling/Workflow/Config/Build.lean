import Workflow.Config.Basic
import Workflow.Config.Placeholder
import Workflow.Pipeline.Basic

/-!
# From a configuration to a pipeline

Building declares the parameters, resolves the placeholders in the arguments of the steps and puts
the pipeline together. Checking looks at names and kinds first and then builds, so what passes the
check can be built; only the check refuses a repeated step name.

* `ConfigError`            the ways a configuration is refused;
* `ConfigError.message`    the outermost words; `ConfigError.chain` adds the cause;
* `Configuration.build`    the pipeline;
* `Configuration.check`    nothing, or why the configuration is refused.
-/

namespace Workflow

inductive ConfigError where
  | blankName
  | repeatedParameter (name : String)
  | repeatedStep (name : String)
  /-- a kind of a step that there is not, found by the check -/
  | badStepKind (step kind : String)
  /-- a kind of a step that there is not, found in building -/
  | unknownStepKind (kind : String)
  | badArguments (step : String) (cause : ReferenceError)
  | definition (cause : DefinitionError)

namespace ConfigError

def message : ConfigError → String
  | blankName => DefinitionError.emptyPipelineName.message
  | repeatedParameter name => (DefinitionError.duplicateParameter name).message
  | repeatedStep name => "Duplicate step name: " ++ name
  | badStepKind step kind => "Step '" ++ step ++ "': " ++ StepKind.unknownMessage kind
  | unknownStepKind kind => StepKind.unknownMessage kind
  | badArguments step _ => "Invalid arguments for step '" ++ step ++ "'"
  | definition cause => cause.message

/-- the words from the outermost to the cause -/
def chain (e : ConfigError) : String :=
  match e with
  | badArguments _ cause => e.message ++ ": " ++ cause.message
  | _ => e.message

end ConfigError

def ParameterSpec.build (p : ParameterSpec) : Except DefinitionError Parameter :=
  match Parameter.declare p.name p.kind, p.default? with
  | .ok q, some v => q.withDefault v
  | r, _ => r

def StepSpec.build (declared : List Parameter) (s : StepSpec) : Except ConfigError Step :=
  match StepKind.ofName? s.kind with
  | none => .error (.unknownStepKind s.kind)
  | some kind =>
    match resolve declared s.arguments with
    | .error cause => .error (.badArguments s.name cause)
    | .ok arguments => .ok ⟨s.name, kind, arguments⟩

namespace Configuration

/-- the declared parameters, or the first that is refused -/
def buildParameters : List ParameterSpec → Except DefinitionError (List Parameter)
  | [] => .ok []
  | p :: ps =>
    match p.build with
    | .error e => .error e
    | .ok q =>
      match buildParameters ps with
      | .error e => .error e
      | .ok qs => .ok (q :: qs)

/-- the steps, or the first that is refused -/
def buildSteps (declared : List Parameter) : List StepSpec → Except ConfigError (List Step)
  | [] => .ok []
  | s :: ss =>
    match s.build declared with
    | .error e => .error e
    | .ok t =>
      match buildSteps declared ss with
      | .error e => .error e
      | .ok ts => .ok (t :: ts)

/-- a pipeline of these parts -/
def assemble (c : Configuration) (parameters : List Parameter) (steps : List Step) :
    Except DefinitionError Pipeline :=
  match Pipeline.empty c.name with
  | .error e => .error e
  | .ok p =>
    match p.withParameters parameters with
    | .error e => .error e
    | .ok p =>
      .ok ((p.withEntries (steps.map .step)).withMetadata (Document.ofJsonFields c.metadata))

def build (c : Configuration) : Except ConfigError Pipeline :=
  match buildParameters c.parameters with
  | .error e => .error (.definition e)
  | .ok parameters =>
    match buildSteps parameters c.steps with
    | .error e => .error e
    | .ok steps =>
      match c.assemble parameters steps with
      | .error e => .error (.definition e)
      | .ok p => .ok p

/-- the first step with a repeated name or without a kind -/
def stepError? (seen : List String) : List StepSpec → Option ConfigError
  | [] => none
  | s :: ss =>
    if s.name ∈ seen then some (.repeatedStep s.name)
    else if (StepKind.ofName? s.kind).isNone then some (.badStepKind s.name s.kind)
    else stepError? (s.name :: seen) ss

/-- what is wrong with the names and kinds -/
def nameError? (c : Configuration) : Option ConfigError :=
  if Text.isBlank c.name then some .blankName
  else match Pipeline.repeatedName? [] (c.parameters.map ParameterSpec.name) with
    | some n => some (.repeatedParameter n)
    | none => stepError? [] c.steps

def check (c : Configuration) : Except ConfigError Unit :=
  match c.nameError? with
  | some e => .error e
  | none => match c.build with
    | .ok _ => .ok ()
    | .error e => .error e

end Configuration

end Workflow
