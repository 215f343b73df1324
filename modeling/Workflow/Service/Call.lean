import Workflow.Service.Message

/-!
# Calls of the service

* `Call`             a request to the service;
* `Call.Response`    what the service sends back if it does not refuse;
* `Call.Answer`      a response or a refusal;
* `Call.payload`     what a call carries; `Call.reading` reads the response.
-/

namespace Workflow.Service

inductive Call where
  | createPipeline (request : PipelineRequest)
  | updatePipeline (request : PipelineRequest)
  | describePipeline (name : String)
  | deletePipeline (name : String)
  | startRun (request : RunRequest)
  | stopRun (arn : String)
  | describeRun (arn : String)
  | listSteps (arn : String)
deriving DecidableEq, Repr

namespace Call

def Response : Call → Type
  | createPipeline _ | updatePipeline _ | deletePipeline _ => PipelineReceipt
  | describePipeline _ => PipelineRecord
  | startRun _ | stopRun _ => RunReceipt
  | describeRun _ => RunRecord
  | listSteps _ => List StepRecord

abbrev Answer (c : Call) : Type := Except Refusal c.Response

def payload : Call → Json
  | createPipeline r | updatePipeline r => r.toJson
  | describePipeline name | deletePipeline name => .string name
  | startRun r => r.toJson
  | stopRun arn | describeRun arn | listSteps arn => .string arn

/-- the reading of the response to a call -/
def reading : (c : Call) → Record.Reading c.Response
  | createPipeline _ | updatePipeline _ | deletePipeline _ => PipelineReceipt.reading
  | describePipeline _ => PipelineRecord.reading
  | startRun _ | stopRun _ => RunReceipt.reading
  | describeRun _ => RunRecord.reading
  | listSteps _ => Record.list StepRecord.reading

end Call

end Workflow.Service
