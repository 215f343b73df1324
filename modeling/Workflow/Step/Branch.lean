import Workflow.Condition
import Workflow.Step.Basic

/-!
# Branches

A branch evaluates conditions and goes on with one of two lists of entries. It is sent as one step
whose arguments hold the conditions and both lists, groups opened.

* `Branch`            conditions and the two lists;
* `Branch.outcome`    the reference to the result of the conditions;
* `Branch.toStep`     the step that is sent.
-/

namespace Workflow

structure Branch where
  name : String
  /-- all of them have to hold -/
  conditions : List Condition
  ifEntries : List Entry
  elseEntries : List Entry

namespace Branch

def outcome (b : Branch) : Property := (Property.ofStep b.name).hop (.field "Outcome")

def toStep (b : Branch) : Step where
  name := b.name
  kind := .condition
  arguments := .object
    [("Conditions", .list (b.conditions.map Condition.toDocument)),
      ("IfSteps", .list (Entry.fragmentsOf b.ifEntries)),
      ("ElseSteps", .list (Entry.fragmentsOf b.elseEntries))]

end Branch

end Workflow
