import Workflow.Pipeline.Basic
import Workflow.Session.Program

/-!
# Sessions

What can be done with pipelines and their runs on the service, each as a program. Every operation
makes one call, but for three: `upsert` makes a second one if the name is taken, `start` asks for
the pipeline before it starts it, and `wait` polls.

* `SessionError`      the ways an operation fails;
* `StoreOptions`      what goes with a pipeline that is stored;
* `create`, `update`, `upsert`, `describe`, `delete`, `start`   the operations on pipelines;
* `RunHandle`         a run by the name the service gave it;
* `stop`, `describeRun`, `listSteps`, `wait`   the operations on runs;
* `Operation`         the operations as data, with one type of results.
-/

namespace Workflow.Session

open Service

inductive SessionError where
  /-- the pipeline to be started could not be described -/
  | notStored (name : String)
  | refused (refusal : Refusal)
  | stillRunning (arn : String) (attempts : Nat)
  | runEnded (arn : String) (status : RunStatus) (reason : String)
deriving DecidableEq, Repr

namespace SessionError

def message : SessionError → String
  | notStored name =>
    "Pipeline '" ++ name ++ "' does not exist on the workflow service. Call create() before start()"
  | refused r => "Service error: " ++ r.text
  | stillRunning arn attempts =>
    "Execution " ++ arn ++ " did not reach a terminal state after " ++
      Record.decimalText attempts ++ " attempts"
  | runEnded arn status reason =>
    "Execution " ++ arn ++ " ended with status " ++ status.name ++ ": " ++ reason

/-- the refusal behind an error, if there is one -/
def refusal? : SessionError → Option Refusal
  | refused r => some r
  | _ => none

end SessionError

abbrev Result (α : Type) := Except SessionError α

/-- one call, a refusal being an error of the session -/
def request (c : Call) : Program (Result c.Response) :=
  (Program.ask c).map fun a => match a with
    | .ok x => .ok x
    | .error r => .error (.refused r)

structure StoreOptions where
  role : String
  description? : Option String
  experiment? : Option String
  tags? : Option (List Tag)
deriving DecidableEq, Repr

/-! ## pipelines -/

def createRequest (p : Pipeline) (o : StoreOptions) : PipelineRequest :=
  ⟨p.name, p.definition, o.role, o.description?, o.experiment?, o.tags?⟩

/-- an update carries neither experiment nor tags -/
def updateRequest (p : Pipeline) (role : String) (description? : Option String) : PipelineRequest :=
  ⟨p.name, p.definition, role, description?, none, none⟩

def create (p : Pipeline) (o : StoreOptions) : Program (Result PipelineReceipt) :=
  request (.createPipeline (createRequest p o))

def update (p : Pipeline) (role : String) (description? : Option String) :
    Program (Result PipelineReceipt) :=
  request (.updatePipeline (updateRequest p role description?))

/-- creates the pipeline, or updates it if its name is taken -/
def upsert (p : Pipeline) (o : StoreOptions) : Program (Result PipelineReceipt) :=
  (create p o).bind fun
    | .error (.refused r) =>
      if r.isNameTaken then update p o.role o.description? else .done (.error (.refused r))
    | other => .done other

def describe (p : Pipeline) : Program (Result PipelineRecord) := request (.describePipeline p.name)

def delete (p : Pipeline) : Program (Result PipelineReceipt) := request (.deletePipeline p.name)

structure RunHandle where
  arn : String
deriving DecidableEq, Repr

def RunHandle.text (h : RunHandle) : String :=
  "PipelineExecution \x7b arn: " ++ Text.quoted h.arn ++ " \x7d"

def start (p : Pipeline) (values? : Option (List (String × Json))) (description? : Option String) :
    Program (Result RunHandle) :=
  (describe p).bind fun
    | .error _ => .done (.error (.notStored p.name))
    | .ok _ => (request (.startRun ⟨p.name, values?.map overridesOf, description?⟩)).map fun
      | .ok receipt => .ok ⟨receipt.arn⟩
      | .error e => .error e

/-! ## runs -/

def stop (h : RunHandle) : Program (Result RunReceipt) := request (.stopRun h.arn)

def describeRun (h : RunHandle) : Program (Result RunRecord) := request (.describeRun h.arn)

def listSteps (h : RunHandle) : Program (Result (List StepRecord)) := request (.listSteps h.arn)

/-- how often to poll and how long to pause in between -/
structure WaitOptions where
  delay : Nat
  attempts : Nat
deriving DecidableEq, Repr

/-- half a minute between two polls, sixty polls -/
def WaitOptions.default : WaitOptions := ⟨30000, 60⟩

/-- what is said of a run that ended without a reason -/
def noReason : String := "no failure reason reported"

/-- what one poll decides: nothing yet, or the result of the wait -/
def verdict? (h : RunHandle) (r : RunRecord) : Option (Result RunRecord) :=
  match r.status with
  | .succeeded => some (.ok r)
  | .failed | .stopped => some (.error (.runEnded h.arn r.status (r.failureReason?.getD noReason)))
  | .executing | .stopping => none

/-- at most `left` further polls -/
def poll (h : RunHandle) (o : WaitOptions) : Nat → Program (Result RunRecord)
  | 0 => .done (.error (.stillRunning h.arn o.attempts))
  | left + 1 =>
    (describeRun h).bind fun
      | .error e => .done (.error e)
      | .ok r =>
        match verdict? h r with
        | some result => .done result
        | none => if left = 0 then poll h o left else .pause o.delay (poll h o left)

/-- polls until the run has ended or the attempts are used up -/
def wait (h : RunHandle) (o : WaitOptions) : Program (Result RunRecord) := poll h o o.attempts

/-! ## operations as data -/

inductive Operation where
  | create (p : Pipeline) (o : StoreOptions)
  | update (p : Pipeline) (role : String) (description? : Option String)
  | upsert (p : Pipeline) (o : StoreOptions)
  | describe (p : Pipeline)
  | delete (p : Pipeline)
  | start (p : Pipeline) (values? : Option (List (String × Json))) (description? : Option String)
  | stop (h : RunHandle)
  | describeRun (h : RunHandle)
  | listSteps (h : RunHandle)
  | wait (h : RunHandle) (o : WaitOptions)

/-- what an operation gives if it succeeds -/
inductive Outcome where
  | stored (receipt : PipelineReceipt)
  | pipeline (record : PipelineRecord)
  | started (handle : RunHandle)
  | stopped (receipt : RunReceipt)
  | run (record : RunRecord)
  | steps (records : List StepRecord)

/-- a result as an outcome -/
def outcome {α : Type} (f : α → Outcome) (p : Program (Result α)) : Program (Result Outcome) :=
  p.map fun
    | .ok x => .ok (f x)
    | .error e => .error e

def Operation.program : Operation → Program (Result Outcome)
  | create p o => outcome .stored (Session.create p o)
  | update p role d => outcome .stored (Session.update p role d)
  | upsert p o => outcome .stored (Session.upsert p o)
  | describe p => outcome .pipeline (Session.describe p)
  | delete p => outcome .stored (Session.delete p)
  | start p values d => outcome .started (Session.start p values d)
  | stop h => outcome .stopped (Session.stop h)
  | describeRun h => outcome .run (Session.describeRun h)
  | listSteps h => outcome .steps (Session.listSteps h)
  | wait h o => outcome .run (Session.wait h o)

end Workflow.Session
