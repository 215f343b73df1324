import Workflow.Proofs.Config.Building
import Workflow.Proofs.Config.Placeholder
import Workflow.Proofs.Pipeline.Request

/-!
# The definition of a configuration

What is sent for a configuration can be read off the configuration: the request has its metadata as
they are written, a fragment for every parameter and every step, and in the arguments of the steps a
reference for every placeholder. Resolving, building, expanding and writing do nothing else.

* `Json.substitute`                      a value with references for its placeholders;
* `ParameterSpec.fragment`               a parameter in the request;
* `StepSpec.fragment`                    a step in the request;
* `Configuration.document`               the request;
* `toJson_expand_resolve`                resolving and expanding substitute;
* `Configuration.definition_of_check`    the definition of a checked configuration is its request.
-/

namespace Workflow

namespace Json

mutual

/-- the value with every string that is a placeholder replaced by the reference to its path -/
def substitute : Json → Json
  | string s =>
    match Placeholder.ofText? s with
    | some p => getExpression (p.root.name ++ "." ++ p.path)
    | none => string s
  | array xs => array (substituteItems xs)
  | object fs => object (substituteFields fs)
  | v => v

def substituteItems : List Json → List Json
  | [] => []
  | x :: xs => substitute x :: substituteItems xs

def substituteFields : List (String × Json) → List (String × Json)
  | [] => []
  | (k, v) :: rest => (k, substitute v) :: substituteFields rest

end

theorem substituteItems_eq (xs : List Json) : substituteItems xs = xs.map substitute := by
  induction xs with
  | nil => rfl
  | cons x xs ih => rw [substituteItems, ih, List.map_cons]

theorem substituteFields_eq (fs : List (String × Json)) :
    substituteFields fs = fs.map fun f => (f.1, substitute f.2) := by
  induction fs with
  | nil => rfl
  | cons f fs ih => rw [substituteFields, ih, List.map_cons]

theorem substitute_of_spells {p : Placeholder} {s : String} (h : p.Spells s) :
    (string s).substitute = getExpression (p.root.name ++ "." ++ p.path) := by
  rw [substitute, Placeholder.ofText?_iff.mpr h]

theorem substitute_of_not_spells {s : String} (h : ∀ p : Placeholder, ¬ p.Spells s) :
    (string s).substitute = string s := by
  have hs : Placeholder.ofText? s = none := by
    rw [Option.eq_none_iff_forall_ne_some]
    intro p hp
    exact h p (Placeholder.ofText?_iff.mp hp)
  rw [substitute, hs]

end Json

open Document in
theorem toJson_expand_resolveText {declared : List Parameter} {s : String} {d : Document}
    (h : resolveText declared s = .ok d) : d.expand.toJson = (Json.string s).substitute := by
  rw [Json.substitute]
  rcases resolveText_eq_ok.mp h with ⟨hs, rfl⟩ | ⟨p, t, hs, ht, rfl⟩
  · rw [hs]
    rfl
  · rw [hs, expand, toJson_ofJson]
    exact Placeholder.target_toJson ht

open Document in
/-- **Resolving and expanding substitute**, whatever parameters are declared. -/
theorem toJson_expand_resolve {declared : List Parameter} {v : Json} : ∀ {d : Document},
    resolve declared v = .ok d → d.expand.toJson = v.substitute := by
  induction v using Json.induct with
  | null => exact fun h => Except.ok.inj h ▸ rfl
  | bool b => exact fun h => Except.ok.inj h ▸ rfl
  | number n => exact fun h => Except.ok.inj h ▸ rfl
  | string s => exact toJson_expand_resolveText
  | array xs ih =>
    intro d h
    obtain ⟨ds, hds, rfl⟩ := resolve_array_eq_ok.mp h
    show Json.array (toJsonItems (expandItems ds)) = .array (Json.substituteItems xs)
    rw [toJsonItems_eq, expandItems_eq, List.map_map, Json.substituteItems_eq]
    congr 1
    exact map_eq_map_of_forall₂ hds fun x hx d hd => ih x hx hd
  | object fs ih =>
    intro d h
    obtain ⟨gs, hgs, rfl⟩ := resolve_object_eq_ok.mp h
    show Json.object (toJsonFields (expandFields gs)) = .object (Json.substituteFields fs)
    rw [toJsonFields_eq, expandFields_eq, List.map_map, Json.substituteFields_eq]
    congr 1
    apply map_eq_map_of_forall₂ hgs
    rintro f hf g ⟨hkey, hg⟩
    show (g.1, g.2.expand.toJson) = (f.1, f.2.substitute)
    rw [hkey, ih f hf hg]

/-! ## the request of a configuration -/

def ParameterSpec.fragment (p : ParameterSpec) : Json :=
  .object ([("Name", .string p.name), ("Type", .string p.kind.name)] ++
    (p.default?.map fun v => ("DefaultValue", v.val)).toList)

def StepSpec.fragment (s : StepSpec) : Json :=
  .object [("Name", .string s.name), ("Type", .string s.kind),
    ("Arguments", s.arguments.val.substitute)]

def Configuration.document (c : Configuration) : Json :=
  .object [("Version", .string "2020-12-01"), ("Metadata", .object c.metadata),
    ("Parameters", .array (c.parameters.map ParameterSpec.fragment)),
    ("Steps", .array (c.steps.map StepSpec.fragment))]

theorem StepSpec.toJson_build {declared : List Parameter} {s : StepSpec} {t : Step}
    (h : s.build declared = .ok t) : t.toDocument.expand.toJson = s.fragment := by
  obtain ⟨hname, hkind, harguments⟩ := StepSpec.build_eq_ok.mp h
  rw [Step.toJson_expand, hname, hkind, toJson_expand_resolve harguments, fragment]

namespace Configuration

open Document

/-- what is built is sent as the request -/
theorem toJson_expanded_build {c : Configuration} {p : Pipeline} (h : c.build = .ok p) :
    p.expanded.toJson = c.document ∧ p.expanded.isPlain = true := by
  obtain ⟨parameters, steps, hparameters, hsteps, hp⟩ := build_eq_ok.mp h
  obtain ⟨-, -, rfl⟩ := assemble_eq_ok.mp hp
  refine ⟨?_, ?_⟩
  · rw [Pipeline.toJson_expanded, document]
    have metadata : (object (ofJsonFields c.metadata)).toJson = .object c.metadata :=
      toJson_ofJson (.object c.metadata)
    have parameterList : parameters.map (fun q => q.toDocument.toJson) =
        c.parameters.map ParameterSpec.fragment := by
      apply map_eq_map_of_forall₂ hparameters
      intro s _ q hq
      rw [(ParameterSpec.build_eq_ok.mp hq).1, Parameter.toJson_toDocument,
        ParameterSpec.parameter, Option.map_map]
      rfl
    have stepList : steps.map (fun t => t.toDocument.expand.toJson) =
        c.steps.map StepSpec.fragment := by
      apply map_eq_map_of_forall₂ hsteps
      intro s _ t ht
      exact StepSpec.toJson_build ht
    have flat : Pipeline.steps ⟨c.name, parameters, steps.map .step,
        ofJsonFields c.metadata⟩ = steps := Entry.stepsOf_map_step steps
    rw [metadata, parameterList, flat, stepList]
    rfl
  · rw [Pipeline.isPlain_expanded]
    exact isPlain_ofJson (.object c.metadata)

/-- **The definition of a checked configuration is the text of its request**, in which nothing is
deferred; there a string is a reference if it is a placeholder, and else itself. -/
theorem definition_of_check {c : Configuration} (h : c.check = .ok ()) :
    (∃ p, c.build = .ok p ∧ p.definition = c.document.wire ∧ p.expanded.isPlain = true) ∧
      ∀ s, (∀ p : Placeholder, p.Spells s →
          (Json.string s).substitute = getExpression (p.root.name ++ "." ++ p.path)) ∧
        ((∀ p : Placeholder, ¬ p.Spells s) → (Json.string s).substitute = .string s) := by
  refine ⟨?_, fun s => ⟨?_, ?_⟩⟩
  · obtain ⟨p, hp⟩ := build_of_check h
    obtain ⟨hjson, hplain⟩ := toJson_expanded_build hp
    refine ⟨p, hp, ?_, hplain⟩
    rw [Pipeline.definition, Document.wire, hjson]
  · intro p hp
    exact Json.substitute_of_spells hp
  · intro hs
    exact Json.substitute_of_not_spells hs

/-- placeholders of every root, and texts that are none: in metadata, in a key, before a blank -/
def everyRoot : Configuration where
  name := "p"
  description? := none
  metadata := ⟨[("note", .string "\x7b\x7b Parameters.x \x7d\x7d")], by decide⟩
  parameters := [⟨"x", .float, some ⟨.number (.float (.zero true)), rfl⟩⟩, ⟨"y", .string, none⟩]
  steps := [⟨"s", "Training", ⟨.object [("\x7b\x7b Steps.t \x7d\x7d", .array
    [.string "\x7b\x7bParameters.x\x7d\x7d", .string "\x7b\x7b Steps.t.out[0] \x7d\x7d"]),
    ("run", .object [("id", .string "\x7b\x7b\tExecution.PipelineArn\n\x7d\x7d")]),
    ("text", .string "\x7b\x7b Parameters.x \x7d\x7d ")], by decide⟩⟩]

theorem definition_everyRoot : ∃ p, everyRoot.build = .ok p ∧ p.definition = (Json.object
    [("Version", .string "2020-12-01"),
      ("Metadata", .object [("note", .string "\x7b\x7b Parameters.x \x7d\x7d")]),
      ("Parameters", .array [.object [("Name", .string "x"), ("Type", .string "Float"),
        ("DefaultValue", .number (.float (.zero true)))],
        .object [("Name", .string "y"), ("Type", .string "String")]]),
      ("Steps", .array [.object [("Name", .string "s"), ("Type", .string "Training"),
        ("Arguments", .object [("\x7b\x7b Steps.t \x7d\x7d", .array
          [.object [("Get", .string "Parameters.x")], .object [("Get", .string "Steps.t.out[0]")]]),
          ("run", .object [("id", .object [("Get", .string "Execution.PipelineArn")])]),
          ("text", .string "\x7b\x7b Parameters.x \x7d\x7d ")])]])]).wire := by
  obtain ⟨p, hp, hdefinition, -⟩ := (definition_of_check (c := everyRoot) rfl).1
  exact ⟨p, hp, hdefinition⟩

end Configuration

end Workflow
