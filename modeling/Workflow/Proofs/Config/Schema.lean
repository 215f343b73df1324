import Workflow.Proofs.Config.Acceptance
import Workflow.Proofs.Config.Lowering

/-!
# Which definitions follow the schema

The service takes a document of a fixed schema. The definition of a checked configuration follows
it in every respect but one: arguments are sent as they are written, so they are sent as an object
only if they are written as an object or as a placeholder. A step that is written without arguments
gets an empty object for them, but null in their place is sent as null.

* `Schema.Request`                      the schema, open in what arguments may be;
* `Json.isObject_substitute_iff`        the arguments that are sent as an object;
* `Configuration.request_document_iff`  when the request of a configuration follows the schema;
* `Configuration.definition_follows`    the definition of a checked configuration.
-/

namespace Workflow

def Json.IsObject (v : Json) : Prop := ∃ fs, v = object fs

/-! ## the schema -/

namespace Schema

def parameterTypes : List String := ["String", "Integer", "Float"]

def stepTypes : List String :=
  ["Training", "Processing", "Transform", "CreateModel", "RegisterModel", "Condition"]

/-- the values of a type; an integer is a float too -/
inductive OfType : String → Json → Prop where
  | string (s : String) : OfType "String" (.string s)
  | integer {v : Int} (h : InRange v) : OfType "Integer" (.number (.integer v h))
  | float (n : Number) : OfType "Float" (.number n)

/-- the entry of a parameter of that name, with a default of its type or without one -/
inductive ParameterEntry (name : String) : Json → Prop where
  | plain {type : String} (htype : type ∈ parameterTypes) :
      ParameterEntry name (.object [("Name", .string name), ("Type", .string type)])
  | defaulted {type : String} {v : Json} (htype : type ∈ parameterTypes) (hv : OfType type v) :
      ParameterEntry name
        (.object [("Name", .string name), ("Type", .string type), ("DefaultValue", v)])

variable (Arguments : Json → Prop)

/-- the entry of a step of that name, with arguments that are allowed -/
inductive StepEntry (name : String) : Json → Prop where
  | intro {type : String} {v : Json} (htype : type ∈ stepTypes) (hv : Arguments v) :
      StepEntry name (.object [("Name", .string name), ("Type", .string type), ("Arguments", v)])

/-- a whole request; names are distinct among parameters and among steps -/
inductive Request : Json → Prop where
  | intro {metadata : List (String × Json)} {parameters steps : List Json}
      {parameterNames stepNames : List String}
      (hparameters : List.Forall₂ ParameterEntry parameterNames parameters)
      (parameters_distinct : parameterNames.Nodup)
      (hsteps : List.Forall₂ (StepEntry Arguments) stepNames steps)
      (steps_distinct : stepNames.Nodup) :
      Request (.object [("Version", .string "2020-12-01"), ("Metadata", .object metadata),
        ("Parameters", .array parameters), ("Steps", .array steps)])

variable {Arguments}

theorem name_mem_parameterTypes (k : ValueKind) : k.name ∈ parameterTypes := by
  cases k <;> decide

theorem ofType_of_accepts {k : ValueKind} {v : Json} (h : k.accepts v = true) :
    OfType k.name v := by
  cases k with
  | string =>
    cases v with
    | string s => exact .string s
    | _ => cases h
  | integer =>
    cases v with
    | number n =>
      cases n with
      | integer v hv => exact .integer hv
      | float v => cases h
    | _ => cases h
  | float =>
    cases v with
    | number n => exact .float n
    | _ => cases h

theorem parameterEntry_fragment {p : ParameterSpec}
    (h : ∀ v ∈ p.default?, p.kind.accepts v = true) : ParameterEntry p.name p.fragment := by
  obtain ⟨name, kind, default?⟩ := p
  cases default? with
  | none => exact .plain (name_mem_parameterTypes kind)
  | some v => exact .defaulted (name_mem_parameterTypes kind) (ofType_of_accepts (h v rfl))

theorem stepEntry_fragment_iff {name : String} {s : StepSpec} :
    StepEntry Arguments name s.fragment ↔
      s.name = name ∧ s.kind ∈ stepTypes ∧ Arguments s.arguments.val.substitute := by
  constructor
  · generalize hv : s.fragment = v
    rintro ⟨htype, harguments⟩
    simp only [StepSpec.fragment, Json.object.injEq, List.cons.injEq, Prod.mk.injEq,
      Json.string.injEq, true_and, and_true] at hv
    obtain ⟨hname, rfl, rfl⟩ := hv
    exact ⟨hname, htype, harguments⟩
  · rintro ⟨rfl, htype, harguments⟩
    exact .intro htype harguments

end Schema

namespace Json

theorem isObject_substitute_iff {v : Json} : v.substitute.IsObject ↔
    v.IsObject ∨ ∃ (p : Placeholder) (s : String), v = string s ∧ p.Spells s := by
  cases v with
  | string s =>
    rw [substitute]
    cases hs : Placeholder.ofText? s with
    | none =>
      constructor
      · rintro ⟨fs, h⟩
        cases h
      · rintro (⟨fs, h⟩ | ⟨p, t, h, hp⟩)
        · cases h
        · obtain rfl : s = t := string.inj h
          rw [Placeholder.ofText?_iff.mpr hp] at hs
          cases hs
    | some p =>
      exact ⟨fun _ => .inr ⟨p, s, rfl, Placeholder.ofText?_iff.mp hs⟩, fun _ => ⟨_, rfl⟩⟩
  | object fs => exact ⟨fun _ => .inl ⟨fs, rfl⟩, fun _ => ⟨_, rfl⟩⟩
  | _ =>
    constructor
    · rintro ⟨fs, h⟩
      cases h
    · rintro (⟨fs, h⟩ | ⟨p, t, h, -⟩) <;> cases h

end Json

namespace Configuration

open Schema

theorem request_document_iff {Arguments : Json → Prop} {c : Configuration} (hsound : c.Sound)
    (hdistinct : (c.steps.map StepSpec.name).Nodup) :
    Request Arguments c.document ↔ ∀ s ∈ c.steps, Arguments s.arguments.val.substitute := by
  constructor
  · -- the parts of the request are determined by what it looks like
    generalize hv : c.document = v
    rintro ⟨-, -, hsteps, -⟩ s hs
    simp only [document, Json.object.injEq, List.cons.injEq, Prod.mk.injEq, Json.array.injEq,
      true_and, and_true] at hv
    obtain ⟨-, -, rfl⟩ := hv
    rw [List.forall₂_map_right_iff] at hsteps
    obtain ⟨name, hstep⟩ := exists_forall₂_iff.mp ⟨_, hsteps.flip⟩ s hs
    exact (stepEntry_fragment_iff.mp hstep).2.2
  · intro harguments
    have parameters : List.Forall₂ ParameterEntry (c.parameters.map ParameterSpec.name)
        (c.parameters.map ParameterSpec.fragment) := by
      rw [List.forall₂_map_left_iff, List.forall₂_map_right_iff, List.forall₂_same]
      exact fun p hp => parameterEntry_fragment (hsound.defaults_fit p hp)
    have steps : List.Forall₂ (StepEntry Arguments) (c.steps.map StepSpec.name)
        (c.steps.map StepSpec.fragment) := by
      rw [List.forall₂_map_left_iff, List.forall₂_map_right_iff, List.forall₂_same]
      intro s hs
      exact stepEntry_fragment_iff.mpr ⟨rfl, hsound.kinds_known s hs, harguments s hs⟩
    exact .intro parameters hsound.parameters_distinct steps hdistinct

theorem sound_of_check {c : Configuration} (h : c.check = .ok ()) :
    c.Sound ∧ (c.steps.map StepSpec.name).Nodup := by
  obtain ⟨hnames, hbuild⟩ := check_eq_ok_iff.mp h
  obtain ⟨-, -, hdistinct, -⟩ := nameError?_eq_none_iff.mp hnames
  exact ⟨exists_build_iff.mp hbuild, hdistinct⟩

/-- what is sent for a checked configuration is the text of its request, and reads back as it -/
theorem definition_eq_wire {c : Configuration} {p : Pipeline} (h : c.build = .ok p) :
    p.definition = c.document.wire ∧ Json.read? p.definition = some c.document := by
  have hread : Json.read? p.definition = some p.expanded.toJson :=
    Pipeline.read?_expanded ⟨p, wellKeyed_of_build h⟩ Json.Style.blank_wire
  rw [(toJson_expanded_build h).1] at hread
  refine ⟨?_, hread⟩
  rw [Pipeline.definition, Document.wire, (toJson_expanded_build h).1]

/-- **The definition of a checked configuration follows the schema but for the arguments**, which
may be any value. It follows all of it exactly if the arguments of every step are written as an
object or as a placeholder. -/
theorem definition_follows {c : Configuration} (h : c.check = .ok ()) :
    ∃ p v, c.build = .ok p ∧ p.definition = v.wire ∧
      Json.read? p.definition = some v ∧ Request (fun _ => True) v ∧
        (Request Json.IsObject v ↔ ∀ s ∈ c.steps, s.arguments.val.IsObject ∨
          ∃ (p : Placeholder) (t : String), s.arguments.val = .string t ∧ p.Spells t) := by
  obtain ⟨hsound, hdistinct⟩ := sound_of_check h
  obtain ⟨p, hp⟩ := build_of_check h
  obtain ⟨hdefinition, hread⟩ := definition_eq_wire hp
  refine ⟨p, c.document, hp, hdefinition, hread, ?_, ?_⟩
  · exact (request_document_iff hsound hdistinct).mpr fun _ _ => trivial
  · rw [request_document_iff hsound hdistinct]
    simp only [Json.isObject_substitute_iff]

/-- one step, with these arguments -/
def oneStep (arguments : Json.Keyed) : Configuration where
  name := "P"
  description? := none
  metadata := .ofPairs []
  parameters := []
  steps := [⟨"Train", "Training", arguments⟩]

theorem definition_follows_placeholder : ∃ p v,
    (oneStep ⟨.string "\x7b\x7b Steps.Load.out \x7d\x7d", rfl⟩).build = .ok p ∧
      Json.read? p.definition = some v ∧ Request Json.IsObject v := by
  obtain ⟨p, v, hp, -, hread, -, hfollows⟩ :=
    definition_follows (c := oneStep ⟨.string "\x7b\x7b Steps.Load.out \x7d\x7d", rfl⟩) rfl
  refine ⟨p, v, hp, hread, hfollows.mpr ?_⟩
  intro s hs
  obtain rfl := List.mem_singleton.mp hs
  exact .inr ⟨⟨.steps, "Load.out"⟩, _, rfl, Placeholder.ofText?_iff.mp rfl⟩

/-- a step as it is written, with or without arguments -/
def written (arguments : List (String × Json)) : Json :=
  .object [("name", .string "P"), ("steps", .array
    [.object ([("name", .string "Train"), ("type", .string "Training")] ++ arguments)])]

/-- arguments that are not given are an empty object, but given as null they are sent as null -/
theorem null_arguments_not_object :
    reading (written []) = .ok (oneStep (.object [])) ∧
      reading (written [("arguments", .null)]) = .ok (oneStep ⟨.null, rfl⟩) ∧
      (oneStep ⟨.null, rfl⟩).check = .ok () ∧
      ∃ p v, (oneStep ⟨.null, rfl⟩).build = .ok p ∧ Json.read? p.definition = some v ∧
        ¬ Request Json.IsObject v := by
  have hcheck : (oneStep ⟨.null, rfl⟩).check = .ok () := rfl
  obtain ⟨hsound, hdistinct⟩ := sound_of_check hcheck
  obtain ⟨p, hp⟩ := build_of_check hcheck
  have hread := (definition_eq_wire hp).2
  refine ⟨rfl, rfl, hcheck, p, (oneStep ⟨.null, rfl⟩).document, hp, hread, ?_⟩
  rw [request_document_iff hsound hdistinct]
  intro h
  obtain ⟨fs, hfs⟩ := h _ List.mem_cons_self
  cases hfs

end Configuration

end Workflow
