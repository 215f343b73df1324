import Workflow.DefinitionError
import Workflow.Reference
import Workflow.Text.Blank

/-!
# Parameters

A parameter is a named, typed value that is given when a run starts. Its name is not blank, and a
default value is of its kind.

* `Parameter.declare`       a parameter without default, refused if the name is blank;
* `Parameter.withDefault`   the parameter with that default, refused if it is of another kind;
* `Parameter.Proper`        what holds of every parameter built by these two;
* `Parameter.expression`    the reference to a parameter, in which only its name counts;
* `Parameter.same`          equality, up to equality of the default values.
-/

namespace Workflow

structure Parameter where
  name : String
  kind : ValueKind
  default? : Option Json

namespace Parameter

def declare (name : String) (kind : ValueKind) : Except DefinitionError Parameter :=
  if Text.isBlank name then .error .emptyParameterName else .ok ⟨name, kind, none⟩

/-- the parameter with that default value in place of any it had -/
def withDefault (p : Parameter) (value : Json) : Except DefinitionError Parameter :=
  if p.kind.accepts value then .ok { p with default? := some value }
  else .error (.invalidDefault p.name p.kind value)

/-- the name is not blank and the default is of the kind -/
structure Proper (p : Parameter) : Prop where
  name_not_blank : Text.isBlank p.name = false
  default_fits : ∀ v ∈ p.default?, p.kind.accepts v = true

def expression (p : Parameter) : Json := getExpression ("Parameters." ++ p.name)

def same (p q : Parameter) : Bool :=
  p.name == q.name && p.kind == q.kind &&
    match p.default?, q.default? with
    | none, none => true
    | some v, some w => v.same w
    | _, _ => false

theorem declare_eq_ok {name : String} {kind : ValueKind} {p : Parameter} :
    declare name kind = .ok p ↔ Text.isBlank name = false ∧ p = ⟨name, kind, none⟩ := by
  rw [declare]
  cases Text.isBlank name with
  | true => simp
  | false => simp [eq_comm]

theorem withDefault_eq_ok {p q : Parameter} {value : Json} : p.withDefault value = .ok q ↔
    p.kind.accepts value = true ∧ q = { p with default? := some value } := by
  rw [withDefault]
  by_cases h : p.kind.accepts value = true
  · simp [h, eq_comm]
  · simp [h]

theorem proper_of_declare {name : String} {kind : ValueKind} {p : Parameter}
    (h : declare name kind = .ok p) : p.Proper := by
  obtain ⟨hname, rfl⟩ := declare_eq_ok.mp h
  exact ⟨hname, nofun⟩

theorem proper_of_withDefault {p q : Parameter} {value : Json} (hp : p.Proper)
    (h : p.withDefault value = .ok q) : q.Proper := by
  obtain ⟨haccepts, rfl⟩ := withDefault_eq_ok.mp h
  refine ⟨hp.name_not_blank, ?_⟩
  intro v hv
  exact Option.some_inj.mp hv ▸ haccepts

end Parameter

end Workflow
