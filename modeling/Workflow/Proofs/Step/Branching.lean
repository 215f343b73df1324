import Workflow.Proofs.Condition.Operands
import Workflow.Proofs.Document.Location
import Workflow.Proofs.Pipeline.Request
import Workflow.Step.Branch
import Workflow.Step.Registration

/-!
# Branches in a request

The two lists of a branch are opened when the branch becomes a step, and everything in them is
expanded when the request is made, however deep the branch stands in other branches. The lists of
steps at the top of a request are opened and expanded at once. Both come to the same: a list of a
branch is sent as the list of steps of a pipeline with the same entries.

* `Entry.expandedSteps`          the steps of entries as they are sent;
* `Branch.StandsIn`              where a branch stands among entries and the branches in them;
* `Branch.expand_toStep`         a branch in the request that is sent;
* `Pipeline.branch_expanded`     its lists of steps are those of pipelines.
-/

namespace Workflow

open Document Entry

/-- the steps of entries in order, groups opened and arguments expanded -/
def Entry.expandedSteps (es : List Entry) : Document :=
  list ((stepsOf es).map fun s => object
    [("Name", string s.name), ("Type", string s.kind.name), ("Arguments", s.arguments.expand)])

theorem Entry.expand_list_fragmentsOf (es : List Entry) :
    (list (fragmentsOf es)).expand = expandedSteps es := by
  rw [list, expand_sequence, fragmentsOf_eq, List.map_map]
  rfl

namespace Branch

/-- The branch is one of the steps of the entries, or stands in one of the two lists of another
branch that is; the location is the way to it from the list of the steps. -/
inductive StandsIn (b : Branch) : List Entry → Location → Prop where
  | here {es : List Entry} {i : Nat} (h : (stepsOf es)[i]? = some b.toStep) :
      StandsIn b es [.index i]
  | onIf {es : List Entry} {i : Nat} {outer : Branch} {loc : Location}
      (h : (stepsOf es)[i]? = some outer.toStep) (inside : StandsIn b outer.ifEntries loc) :
      StandsIn b es (.index i :: .key "Arguments" :: .key "IfSteps" :: loc)
  | onElse {es : List Entry} {i : Nat} {outer : Branch} {loc : Location}
      (h : (stepsOf es)[i]? = some outer.toStep) (inside : StandsIn b outer.elseEntries loc) :
      StandsIn b es (.index i :: .key "Arguments" :: .key "ElseSteps" :: loc)

/-- the branch as it is sent -/
def expanded (b : Branch) : Document :=
  object [("Name", string b.name), ("Type", string "Condition"), ("Arguments", object
    [("Conditions", list (b.conditions.map fun c => (c.mapOperands expand).toDocument)),
      ("IfSteps", expandedSteps b.ifEntries), ("ElseSteps", expandedSteps b.elseEntries)])]

theorem expand_toStep (b : Branch) : b.toStep.toDocument.expand = b.expanded := by
  have conditions : (list (b.conditions.map Condition.toDocument)).expand =
      list (b.conditions.map fun c => (c.mapOperands expand).toDocument) := by
    rw [list, expand_sequence, List.map_map]
    exact congrArg list (List.map_congr_left fun c _ => c.expand_toDocument)
  rw [expanded, ← conditions, ← expand_list_fragmentsOf, ← expand_list_fragmentsOf]
  rfl

theorem at?_expandedSteps_index {es : List Entry} {i : Nat} {b : Branch}
    (h : (stepsOf es)[i]? = some b.toStep) (rest : Location) :
    (expandedSteps es).at? (.index i :: rest) = b.expanded.at? rest := by
  have item : (expandedSteps es).part? (.index i) = some b.toStep.toDocument.expand := by
    show ((stepsOf es).map fun s => s.toDocument.expand)[i]? = _
    rw [List.getElem?_map, h]
    rfl
  rw [at?_cons, item, expand_toStep]
  rfl

/-- the list of steps leads to every branch in it, at the location where the branch stands -/
theorem StandsIn.at?_expandedSteps {b : Branch} {es : List Entry} {loc : Location}
    (h : b.StandsIn es loc) : (expandedSteps es).at? loc = some b.expanded := by
  induction h with
  | here h => exact at?_expandedSteps_index h []
  | onIf h _ ih =>
    rw [at?_expandedSteps_index h]
    exact ih
  | onElse h _ ih =>
    rw [at?_expandedSteps_index h]
    exact ih

end Branch

namespace Pipeline

open Branch

theorem expanded_eq (p : Pipeline) : p.expanded = p.documentWith (expandedSteps p.entries) := by
  rw [expanded, stepList, expand_list_fragmentsOf]

theorem get?_steps_expanded (p : Pipeline) :
    p.expanded.get? "Steps" = some (expandedSteps p.entries) := by
  rw [expanded_eq]
  rfl

theorem at?_steps_expanded (p : Pipeline) (loc : Location) :
    p.expanded.at? (.key "Steps" :: loc) = (expandedSteps p.entries).at? loc := by
  rw [expanded_eq]
  rfl

/-- **A list of a branch is sent as the list of steps of a pipeline.** Where a branch stands in a
pipeline, at any depth, the request has a step in which nothing is deferred: its conditions are
those of the branch with their operands expanded, and its two lists are the lists of steps that any
pipeline with the same entries has in its request, the steps in order with their arguments
expanded. -/
theorem branch_expanded (p : Pipeline) (b : Branch) (loc : Location)
    (h : b.StandsIn p.entries loc) :
    ∃ sent, p.expanded.at? (.key "Steps" :: loc) = some sent ∧ sent.isPlain = true ∧
      sent = object [("Name", string b.name), ("Type", string "Condition"), ("Arguments", object
        [("Conditions", list (b.conditions.map fun c => (c.mapOperands expand).toDocument)),
          ("IfSteps", expandedSteps b.ifEntries),
          ("ElseSteps", expandedSteps b.elseEntries)])] ∧
      ∀ (q : Pipeline) (es : List Entry),
        (q.withEntries es).expanded.get? "Steps" = some (expandedSteps es) := by
  have found : p.expanded.at? (.key "Steps" :: loc) = some b.expanded := by
    rw [at?_steps_expanded, h.at?_expandedSteps]
  have plain : b.expanded.isPlain = true := by
    rw [← expand_toStep]
    exact isPlain_expand _
  exact ⟨b.expanded, found, plain, rfl, fun q es => get?_steps_expanded (q.withEntries es)⟩

/-- a score is one of two equal marks, or else the model is registered -/
def release : Branch where
  name := "Release"
  conditions := [.not (.isIn (property ((Property.ofStep "Score").hop (.field "Mark")))
    [string "low", string "low"])]
  ifEntries := [Registration.toEntry ⟨"Register", "image",
    property ((Property.ofStep "Train").hop (.field "Model")), [], [], [], [], none, none⟩]
  elseEntries := []

/-- the release stands in a group in the second list of another branch -/
def review : Branch where
  name := "Review"
  conditions := []
  ifEntries := []
  elseEntries := [.group none [.step ⟨"Score", .processing, .object []⟩, .step release.toStep]]

def reviewed : Pipeline where
  name := "reviewed"
  parameters := []
  entries := [.step ⟨"Train", .training, .object []⟩, .group (some "all") [.step review.toStep]]
  metadata := []

theorem branch_expanded_release :
    release.StandsIn reviewed.entries
      [.index 1, .key "Arguments", .key "ElseSteps", .index 1] ∧
    ∃ sent, reviewed.expanded.at? [.key "Steps", .index 1, .key "Arguments", .key "ElseSteps",
        .index 1] = some sent ∧ sent.isPlain = true ∧
      sent = object [("Name", string "Release"), ("Type", string "Condition"), ("Arguments", object
        [("Conditions", list [object [("Type", string "Not"), ("Expression", object
            [("Type", string "In"), ("QueryValue", object [("Get", string "Steps.Score.Mark")]),
              ("Values", list [string "low", string "low"])])]]),
          ("IfSteps", expandedSteps release.ifEntries), ("ElseSteps", list [])])] ∧
      (reviewed.withEntries release.ifEntries).expanded.get? "Steps" =
        some (expandedSteps release.ifEntries) := by
  have stands : release.StandsIn reviewed.entries
      [.index 1, .key "Arguments", .key "ElseSteps", .index 1] :=
    .onElse (show (stepsOf reviewed.entries)[1]? = some review.toStep from rfl) (.here rfl)
  obtain ⟨sent, found, plain, written, listed⟩ := branch_expanded reviewed release _ stands
  exact ⟨stands, sent, found, plain, written, listed reviewed release.ifEntries⟩

end Pipeline

end Workflow
