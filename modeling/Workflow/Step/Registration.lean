import Workflow.Step.Basic

/-!
# Model registration

A registration makes a trained model known to the service as a package. It is a group of the one
step that does so, both under the name of the registration.

* `Registration`            the model and what it supports;
* `Registration.toEntry`    the group that is listed in a pipeline.
-/

namespace Workflow

structure Registration where
  name : String
  image : String
  /-- where the model data is, usually the output of a training step -/
  modelData : Document
  contentTypes : List String
  responseTypes : List String
  inferenceInstances : List String
  transformInstances : List String
  packageGroup? : Option Document
  approval? : Option Document

namespace Registration

def strings (texts : List String) : Document := .list (texts.map .string)

/-- a field that is left out without a value -/
def optionalField (key : String) (value? : Option Document) : List (String × Document) :=
  (value?.map fun v => (key, v)).toList

def arguments (r : Registration) : Document :=
  let container : Document := .object [("Image", .string r.image), ("ModelDataUrl", r.modelData)]
  let specification : Document := .object
    [("Containers", .list [container]),
      ("SupportedContentTypes", strings r.contentTypes),
      ("SupportedRealtimeInferenceInstanceTypes", strings r.inferenceInstances),
      ("SupportedResponseMIMETypes", strings r.responseTypes),
      ("SupportedTransformInstanceTypes", strings r.transformInstances)]
  .object (("InferenceSpecification", specification) ::
    (optionalField "ModelPackageGroupName" r.packageGroup? ++
      optionalField "ModelApprovalStatus" r.approval?))

def toStep (r : Registration) : Step := ⟨r.name, .registerModel, r.arguments⟩

def toEntry (r : Registration) : Entry := .group (some r.name) [.step r.toStep]

end Registration

end Workflow
