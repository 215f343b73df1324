import Workflow.Document.Basic

/-!
# Conditions

A condition is a test that the service evaluates when a run reaches it. Its operands are documents
and may be deferred.

* `Comparison`            the five tests of two operands;
* `Condition`             a comparison, membership, negation or alternative;
* `Condition.typeName`    the name of the test;
* `Condition.toDocument`  the request form, in which that name stands first.
-/

namespace Workflow

inductive Comparison where
  | equal
  | greater
  | greaterOrEqual
  | less
  | lessOrEqual
deriving DecidableEq, Repr

def Comparison.name : Comparison → String
  | equal => "Equals"
  | greater => "GreaterThan"
  | greaterOrEqual => "GreaterThanOrEqualTo"
  | less => "LessThan"
  | lessOrEqual => "LessThanOrEqualTo"

inductive Condition where
  | compare (test : Comparison) (left right : Document)
  /-- the query is one of the values -/
  | isIn (query : Document) (values : List Document)
  | not (condition : Condition)
  /-- one of the conditions holds -/
  | any (conditions : List Condition)

namespace Condition

/-- the name of the test -/
def typeName : Condition → String
  | compare test _ _ => test.name
  | isIn _ _ => "In"
  | not _ => "Not"
  | any _ => "Or"

/-- the first entry of the request form -/
def typeEntry (c : Condition) : String × Document := ("Type", .string c.typeName)

mutual

def toDocument : Condition → Document
  | compare test left right =>
    .object [typeEntry (compare test left right), ("LeftValue", left), ("RightValue", right)]
  | isIn query values =>
    .object [typeEntry (isIn query values), ("QueryValue", query), ("Values", .list values)]
  | not condition => .object [typeEntry (not condition), ("Expression", toDocument condition)]
  | any conditions =>
    .object [typeEntry (any conditions), ("Conditions", .list (toDocuments conditions))]

def toDocuments : List Condition → List Document
  | [] => []
  | c :: cs => toDocument c :: toDocuments cs

end

end Condition

end Workflow
