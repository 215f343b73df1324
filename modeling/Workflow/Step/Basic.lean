import Workflow.Document.Basic

/-!
# Steps and groups of steps

A pipeline lists its steps one by one or in groups, which may hold further groups. Groups are for
the reader of a pipeline only: a request holds the steps in order and nothing of the grouping.

* `StepKind`          what a step does, by the name the service gives it;
* `Step`              a named step with its arguments; `Step.toDocument` is its request form;
* `Entry`             a step, or a group of entries with or without a name;
* `Entry.steps`       the steps of an entry in order;
* `Entry.fragments`   the request forms of an entry in order;
* `fragmentsOf_eq`    the request forms of entries are those of their steps.
-/

namespace Workflow

inductive StepKind where
  | training
  | processing
  | transform
  | createModel
  | registerModel
  | condition
deriving DecidableEq, Repr

namespace StepKind

def all : List StepKind := [training, processing, transform, createModel, registerModel, condition]

def name : StepKind → String
  | training => "Training"
  | processing => "Processing"
  | transform => "Transform"
  | createModel => "CreateModel"
  | registerModel => "RegisterModel"
  | condition => "Condition"

def ofName? (s : String) : Option StepKind := all.find? fun k => k.name == s

/-- what is said of a name that is not among the kinds -/
def unknownMessage (s : String) : String := "Unknown step type: " ++ s

theorem ofName?_eq_some_iff {s : String} {k : StepKind} : ofName? s = some k ↔ k.name = s := by
  constructor
  · intro h
    simpa using List.find?_some h
  · rintro rfl
    cases k <;> rfl

theorem mem_all (k : StepKind) : k ∈ all := by cases k <;> decide

theorem ofName?_eq_none_iff {s : String} : ofName? s = none ↔ s ∉ all.map name := by
  rw [Option.eq_none_iff_forall_ne_some, List.mem_map]
  simp only [Ne, ofName?_eq_some_iff]
  exact ⟨fun h ⟨k, _, hk⟩ => h k hk, fun h k hk => h ⟨k, mem_all k, hk⟩⟩

end StepKind

structure Step where
  name : String
  kind : StepKind
  arguments : Document

namespace Step

/-- the root of the outputs of the step -/
def output (s : Step) : Property := .ofStep s.name

/-- the request form, arguments as they are -/
def toDocument (s : Step) : Document :=
  .object [("Name", .string s.name), ("Type", .string s.kind.name), ("Arguments", s.arguments)]

def same (s t : Step) : Bool := s.name == t.name && s.kind == t.kind && s.arguments.same t.arguments

end Step

/-- what a pipeline lists: a step, or a group of entries -/
inductive Entry where
  | step (step : Step)
  | group (name : Option String) (entries : List Entry)

namespace Entry

mutual

def steps : Entry → List Step
  | step s => [s]
  | group _ entries => stepsOf entries

def stepsOf : List Entry → List Step
  | [] => []
  | e :: es => steps e ++ stepsOf es

end

mutual

def fragments : Entry → List Document
  | step s => [s.toDocument]
  | group _ entries => fragmentsOf entries

def fragmentsOf : List Entry → List Document
  | [] => []
  | e :: es => fragments e ++ fragmentsOf es

end

mutual

/-- equality of entries, grouping included -/
def same : Entry → Entry → Bool
  | step s, step t => s.same t
  | group n es, group m fs => n == m && sameEntries es fs
  | _, _ => false

def sameEntries : List Entry → List Entry → Bool
  | [], [] => true
  | e :: es, f :: fs => same e f && sameEntries es fs
  | _, _ => false

end

theorem stepsOf_eq (es : List Entry) : stepsOf es = es.flatMap steps := by
  induction es with
  | nil => rfl
  | cons e es ih => simp [stepsOf, ih]

theorem stepsOf_append (es fs : List Entry) : stepsOf (es ++ fs) = stepsOf es ++ stepsOf fs := by
  simp [stepsOf_eq]

theorem stepsOf_map_step (ss : List Step) : stepsOf (ss.map step) = ss := by
  induction ss with
  | nil => rfl
  | cons s ss ih => simp [stepsOf, steps, ih]

mutual

theorem fragments_eq (e : Entry) : fragments e = (steps e).map Step.toDocument := by
  cases e with
  | step s => rfl
  | group n entries => exact fragmentsOf_eq entries

/-- the request forms of entries are those of their steps -/
theorem fragmentsOf_eq (es : List Entry) : fragmentsOf es = (stepsOf es).map Step.toDocument := by
  cases es with
  | nil => rfl
  | cons e es => simp [fragmentsOf, stepsOf, fragments_eq e, fragmentsOf_eq es]

end

end Entry

end Workflow
