import Workflow.Condition
import Workflow.Proofs.Document.Distinct

/-!
# The operands of a condition

The operands of a condition are the documents it compares, at every depth of negations and
alternatives. Expanding the request form of a condition rewrites them and nothing else: tests,
nesting and the list of values of a membership stay.

* `Condition.mapOperands`         a condition with its operands rewritten;
* `Condition.expand_toDocument`   the expanded request form is that of the condition with its
                                  operands expanded.
-/

namespace Workflow.Condition

open Document

mutual

/-- the condition with a function applied to every operand -/
def mapOperands (f : Document → Document) : Condition → Condition
  | compare test left right => compare test (f left) (f right)
  | isIn query values => isIn (f query) (values.map f)
  | not condition => not (mapOperands f condition)
  | any conditions => any (mapOperandsOf f conditions)

def mapOperandsOf (f : Document → Document) : List Condition → List Condition
  | [] => []
  | c :: cs => mapOperands f c :: mapOperandsOf f cs

end

mutual

theorem expand_toDocument (c : Condition) :
    c.toDocument.expand = (c.mapOperands expand).toDocument := by
  cases c with
  | compare test left right => rfl
  | isIn query values =>
    show object [("Type", string "In"), ("QueryValue", query.expand),
      ("Values", (sequence .list values).expand)] = _
    rw [expand_sequence]
    rfl
  | not condition =>
    show object [("Type", string "Not"), ("Expression", condition.toDocument.expand)] = _
    rw [expand_toDocument condition]
    rfl
  | any conditions =>
    show object [("Type", string "Or"),
      ("Conditions", (sequence .list (toDocuments conditions)).expand)] = _
    rw [expand_sequence, expand_toDocuments conditions]
    rfl

theorem expand_toDocuments (cs : List Condition) :
    (toDocuments cs).map expand = toDocuments (mapOperandsOf expand cs) := by
  cases cs with
  | nil => rfl
  | cons c cs =>
    rw [toDocuments, List.map_cons, expand_toDocument c, expand_toDocuments cs]
    rfl

end

end Workflow.Condition
