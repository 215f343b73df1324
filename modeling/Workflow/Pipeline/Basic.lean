import Workflow.Document.Expand
import Workflow.Step.Basic

/-!
# Pipelines

A pipeline has a name, parameters with distinct names, a list of entries and free metadata. It is
sent as one document; in the document that is sent the steps are expanded and all else is as it was
given.

* `Pipeline.empty`              a pipeline without anything, refused if its name is blank;
* `Pipeline.pushParameter`      one more parameter in place, refused if its name is taken;
* `Pipeline.addParameter`       the pipeline with one more parameter, unless it is refused;
* `Pipeline.withParameters`     other parameters, refused if a name is repeated;
* `Pipeline.toDocument`         the request, nothing expanded;
* `Pipeline.expanded`           the request with its steps expanded;
* `Pipeline.definition`         the text of the expanded request;
* `Edit`, `Pipeline.edit`       the changes of a pipeline as data.
-/

namespace Workflow

def Parameter.toDocument (p : Parameter) : Document :=
  .object ([("Name", .string p.name), ("Type", .string p.kind.name)] ++
    (p.default?.map fun v => ("DefaultValue", Document.ofJson v)).toList)

structure Pipeline where
  name : String
  parameters : List Parameter
  entries : List Entry
  metadata : List (String × Document)

namespace Pipeline

/-- the version of the document that is sent -/
def schemaVersion : String := "2020-12-01"

def empty (name : String) : Except DefinitionError Pipeline :=
  if Text.isBlank name then .error .emptyPipelineName else .ok ⟨name, [], [], []⟩

/-- the parameter of a name -/
def parameter? (p : Pipeline) (name : String) : Option Parameter :=
  p.parameters.find? fun q => q.name == name

/-- one more parameter in place: whether it is refused, and the pipeline that there is then -/
def pushParameter (p : Pipeline) (q : Parameter) : Except DefinitionError Unit × Pipeline :=
  match p.parameter? q.name with
  | some _ => (.error (.duplicateParameter q.name), p)
  | none => (.ok (), { p with parameters := p.parameters ++ [q] })

def addParameter (p : Pipeline) (q : Parameter) : Except DefinitionError Pipeline :=
  match p.pushParameter q with
  | (.error e, _) => .error e
  | (.ok (), r) => .ok r

/-- the first name that occurs earlier in the list or has been seen before it -/
def repeatedName? (seen : List String) : List String → Option String
  | [] => none
  | n :: ns => if n ∈ seen then some n else repeatedName? (n :: seen) ns

theorem repeatedName?_eq_none_iff {seen ns : List String} :
    repeatedName? seen ns = none ↔ ns.Nodup ∧ ∀ n ∈ ns, n ∉ seen := by
  induction ns generalizing seen with
  | nil => simp [repeatedName?]
  | cons n ns ih =>
    rw [repeatedName?, List.nodup_cons, List.forall_mem_cons]
    by_cases hn : n ∈ seen
    · simp [hn]
    · rw [if_neg hn, ih]
      constructor
      · rintro ⟨hdistinct, hfresh⟩
        refine ⟨⟨fun hmem => hfresh n hmem List.mem_cons_self, hdistinct⟩, hn, ?_⟩
        exact fun m hm hseen => hfresh m hm (List.mem_cons_of_mem n hseen)
      · rintro ⟨⟨hfirst, hdistinct⟩, -, hfresh⟩
        refine ⟨hdistinct, fun m hm hseen => ?_⟩
        rcases List.mem_cons.mp hseen with rfl | hseen
        · exact hfirst hm
        · exact hfresh m hm hseen

theorem repeatedName?_nil_eq_none_iff {ns : List String} :
    repeatedName? [] ns = none ↔ ns.Nodup := by
  rw [repeatedName?_eq_none_iff]
  exact and_iff_left fun _ _ => List.not_mem_nil

def withParameters (p : Pipeline) (qs : List Parameter) : Except DefinitionError Pipeline :=
  match repeatedName? [] (qs.map Parameter.name) with
  | some n => .error (.duplicateParameter n)
  | none => .ok { p with parameters := qs }

def addEntry (p : Pipeline) (e : Entry) : Pipeline := { p with entries := p.entries ++ [e] }

def withEntries (p : Pipeline) (es : List Entry) : Pipeline := { p with entries := es }

def withMetadata (p : Pipeline) (fields : List (String × Document)) : Pipeline :=
  { p with metadata := fields }

/-- another name, which is not looked at -/
def rename (p : Pipeline) (name : String) : Pipeline := { p with name := name }

/-- all steps in order, groups opened -/
def steps (p : Pipeline) : List Step := Entry.stepsOf p.entries

/-- a request from its list of steps -/
def documentWith (p : Pipeline) (steps : Document) : Document :=
  .object
    [("Version", .string schemaVersion),
      ("Metadata", .object p.metadata),
      ("Parameters", .list (p.parameters.map Parameter.toDocument)),
      ("Steps", steps)]

/-- the steps as they are listed in a request -/
def stepList (p : Pipeline) : Document := .list (Entry.fragmentsOf p.entries)

def toDocument (p : Pipeline) : Document := p.documentWith p.stepList

def expanded (p : Pipeline) : Document := p.documentWith p.stepList.expand

def definition (p : Pipeline) : String := p.expanded.wire

def sameParameters : List Parameter → List Parameter → Bool
  | [], [] => true
  | p :: ps, q :: qs => p.same q && sameParameters ps qs
  | _, _ => false

/-- equality of pipelines, up to equality of the documents in them -/
def same (p q : Pipeline) : Bool :=
  p.name == q.name && sameParameters p.parameters q.parameters &&
    Entry.sameEntries p.entries q.entries && Document.same (.object p.metadata) (.object q.metadata)

end Pipeline

inductive Edit where
  | addParameter (p : Parameter)
  | setParameters (ps : List Parameter)
  | addEntry (e : Entry)
  | setEntries (es : List Entry)
  | setMetadata (fields : List (String × Document))
  | rename (name : String)

namespace Pipeline

/-- the pipeline after a change, or why the change is refused -/
def edit (p : Pipeline) : Edit → Except DefinitionError Pipeline
  | .addParameter q => p.addParameter q
  | .setParameters qs => p.withParameters qs
  | .addEntry e => .ok (p.addEntry e)
  | .setEntries es => .ok (p.withEntries es)
  | .setMetadata fields => .ok (p.withMetadata fields)
  | .rename name => .ok (p.rename name)

/-- The pipeline that there is after a change. A parameter is added in place; any other change that is
refused leaves the pipeline as it was. -/
def editOrKeep (p : Pipeline) : Edit → Pipeline
  | .addParameter q => (p.pushParameter q).2
  | e => (p.edit e).toOption.getD p

end Pipeline

end Workflow
