import Workflow.Service.Status

/-!
# Messages to and from the service

Every message is a record with a JSON form and a reading of that form. Requests leave out the
members that are not set; answers write them as null.

* `Refusal`                            an error reported by the service;
* `PipelineRequest`, `RunRequest`      what is sent to store or to start a pipeline;
* `PipelineReceipt`, `RunReceipt`      the name the service gives to what was asked for;
* `PipelineRecord`, `RunRecord`, `StepRecord`   what the service tells of a pipeline, a run, a step;
* `overridesOf`                        parameter values for a run as texts.
-/

namespace Workflow.Service

open Record (Members Reading)

/-! ## members that may be absent -/

/-- a member that is left out when it is not set -/
def ifSet {α : Type} (key : String) (form : α → Json) (value? : Option α) : List (String × Json) :=
  (value?.map fun x => (key, form x)).toList

/-- null for a value that is not set -/
def orNull {α : Type} (form : α → Json) : Option α → Json
  | none => .null
  | some x => form x

def arrayOf {α : Type} (form : α → Json) (xs : List α) : Json := .array (xs.map form)

/-! ## errors -/

structure Refusal where
  code : String
  message : String
deriving DecidableEq, Repr

namespace Refusal

def members : Members Refusal :=
  .pure Refusal.mk <*> .required "Code" Record.text <*> .required "Message" Record.text

def reading : Reading Refusal := members.reading "ServiceError"

def toJson (r : Refusal) : Json :=
  .object [("Code", .string r.code), ("Message", .string r.message)]

def text (r : Refusal) : String := r.code ++ ": " ++ r.message

/-- the code of an invalid request -/
def validationCode : String := "ValidationException"

/-- what the service says, somewhere in its message, of a name that is taken -/
def takenMessage : String := "Pipeline names must be unique within"

/-- a list of characters stands somewhere in another -/
def occursIn (part : List Char) : List Char → Bool
  | [] => part.isEmpty
  | c :: cs => part.isPrefixOf (c :: cs) || occursIn part cs

/-- a pipeline could not be stored because its name is taken -/
def isNameTaken (r : Refusal) : Bool :=
  r.code == validationCode && occursIn takenMessage.toList r.message.toList

end Refusal

/-! ## requests -/

structure Tag where
  key : String
  value : String
deriving DecidableEq, Repr

namespace Tag

def members : Members Tag :=
  .pure Tag.mk <*> .required "Key" Record.text <*> .required "Value" Record.text

def reading : Reading Tag := members.reading "Tag"

def toJson (t : Tag) : Json := .object [("Key", .string t.key), ("Value", .string t.value)]

end Tag

structure PipelineRequest where
  name : String
  definition : String
  role : String
  description? : Option String
  experiment? : Option String
  tags? : Option (List Tag)
deriving DecidableEq, Repr

namespace PipelineRequest

def members : Members PipelineRequest :=
  .pure PipelineRequest.mk <*> .required "PipelineName" Record.text <*>
    .required "PipelineDefinition" Record.text <*> .required "RoleArn" Record.text <*>
    .optional "PipelineDescription" Record.text <*> .optional "ExperimentName" Record.text <*>
    .optional "Tags" (Record.list Tag.reading)

def reading : Reading PipelineRequest := members.reading "PipelineRequest"

def toJson (r : PipelineRequest) : Json :=
  .object ([("PipelineName", .string r.name), ("PipelineDefinition", .string r.definition),
      ("RoleArn", .string r.role)] ++
    (ifSet "PipelineDescription" .string r.description? ++
      (ifSet "ExperimentName" .string r.experiment? ++ ifSet "Tags" (arrayOf Tag.toJson) r.tags?)))

end PipelineRequest

/-- a parameter value for one run -/
structure Override where
  name : String
  value : String
deriving DecidableEq, Repr

namespace Override

def members : Members Override :=
  .pure Override.mk <*> .required "Name" Record.text <*> .required "Value" Record.text

def reading : Reading Override := members.reading "ParameterOverride"

def toJson (o : Override) : Json := .object [("Name", .string o.name), ("Value", .string o.value)]

end Override

/-- a string stands for itself, any other value for its text -/
def overrideText : Json → String
  | .string s => s
  | v => v.compact

def overridesOf (values : List (String × Json)) : List Override :=
  values.map fun f => ⟨f.1, overrideText f.2⟩

structure RunRequest where
  pipeline : String
  overrides? : Option (List Override)
  description? : Option String
deriving DecidableEq, Repr

namespace RunRequest

def members : Members RunRequest :=
  .pure RunRequest.mk <*> .required "PipelineName" Record.text <*>
    .optional "PipelineParameters" (Record.list Override.reading) <*>
    .optional "PipelineExecutionDescription" Record.text

def reading : Reading RunRequest := members.reading "StartExecutionRequest"

def toJson (r : RunRequest) : Json :=
  .object (("PipelineName", .string r.pipeline) ::
    (ifSet "PipelineParameters" (arrayOf Override.toJson) r.overrides? ++
      ifSet "PipelineExecutionDescription" .string r.description?))

end RunRequest

/-! ## answers -/

structure PipelineReceipt where
  arn : String
deriving DecidableEq, Repr

namespace PipelineReceipt

def members : Members PipelineReceipt :=
  .pure PipelineReceipt.mk <*> .required "PipelineArn" Record.text

def reading : Reading PipelineReceipt := members.reading "PipelineArnResponse"

def toJson (r : PipelineReceipt) : Json := .object [("PipelineArn", .string r.arn)]

end PipelineReceipt

structure RunReceipt where
  arn : String
deriving DecidableEq, Repr

namespace RunReceipt

def members : Members RunReceipt :=
  .pure RunReceipt.mk <*> .required "PipelineExecutionArn" Record.text

def reading : Reading RunReceipt := members.reading "ExecutionArnResponse"

def toJson (r : RunReceipt) : Json := .object [("PipelineExecutionArn", .string r.arn)]

end RunReceipt

/-- a moment as the service writes it -/
def momentJson (m : Calendar.Moment) : Json := .string m.text

structure PipelineRecord where
  arn : String
  name : String
  definition? : Option String
  description? : Option String
  role? : Option String
  status? : Option String
  created? : Option Calendar.Moment
  modified? : Option Calendar.Moment
deriving DecidableEq, Repr

namespace PipelineRecord

def members : Members PipelineRecord :=
  .pure PipelineRecord.mk <*> .required "PipelineArn" Record.text <*>
    .required "PipelineName" Record.text <*> .optional "PipelineDefinition" Record.text <*>
    .optional "PipelineDescription" Record.text <*> .optional "RoleArn" Record.text <*>
    .optional "PipelineStatus" Record.text <*> .optional "CreationTime" Record.moment <*>
    .optional "LastModifiedTime" Record.moment

def reading : Reading PipelineRecord := members.reading "PipelineDescription"

def toJson (r : PipelineRecord) : Json :=
  .object [("PipelineArn", .string r.arn), ("PipelineName", .string r.name),
    ("PipelineDefinition", orNull .string r.definition?),
    ("PipelineDescription", orNull .string r.description?), ("RoleArn", orNull .string r.role?),
    ("PipelineStatus", orNull .string r.status?), ("CreationTime", orNull momentJson r.created?),
    ("LastModifiedTime", orNull momentJson r.modified?)]

end PipelineRecord

structure RunRecord where
  arn : String
  status : RunStatus
  pipelineArn? : Option String
  description? : Option String
  failureReason? : Option String
  created? : Option Calendar.Moment
  modified? : Option Calendar.Moment
deriving DecidableEq, Repr

namespace RunRecord

def members : Members RunRecord :=
  .pure RunRecord.mk <*> .required "PipelineExecutionArn" Record.text <*>
    .required "PipelineExecutionStatus" RunStatus.reading <*>
    .optional "PipelineArn" Record.text <*>
    .optional "PipelineExecutionDescription" Record.text <*>
    .optional "FailureReason" Record.text <*>
    .optional "CreationTime" Record.moment <*> .optional "LastModifiedTime" Record.moment

def reading : Reading RunRecord := members.reading "ExecutionDescription"

def toJson (r : RunRecord) : Json :=
  .object [("PipelineExecutionArn", .string r.arn), ("PipelineExecutionStatus", r.status.toJson),
    ("PipelineArn", orNull .string r.pipelineArn?),
    ("PipelineExecutionDescription", orNull .string r.description?),
    ("FailureReason", orNull .string r.failureReason?),
    ("CreationTime", orNull momentJson r.created?),
    ("LastModifiedTime", orNull momentJson r.modified?)]

end RunRecord

structure StepRecord where
  name : String
  status : StepStatus
  started? : Option Calendar.Moment
  ended? : Option Calendar.Moment
  failureReason? : Option String
deriving DecidableEq, Repr

namespace StepRecord

def members : Members StepRecord :=
  .pure StepRecord.mk <*> .required "StepName" Record.text <*>
    .required "StepStatus" StepStatus.reading <*> .optional "StartTime" Record.moment <*>
    .optional "EndTime" Record.moment <*> .optional "FailureReason" Record.text

def reading : Reading StepRecord := members.reading "StepExecution"

def toJson (r : StepRecord) : Json :=
  .object [("StepName", .string r.name), ("StepStatus", r.status.toJson),
    ("StartTime", orNull momentJson r.started?), ("EndTime", orNull momentJson r.ended?),
    ("FailureReason", orNull .string r.failureReason?)]

end StepRecord

end Workflow.Service
