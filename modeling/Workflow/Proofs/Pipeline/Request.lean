import Workflow.Pipeline.Keyed
import Workflow.Proofs.Document.Equality
import Workflow.Proofs.Json.RoundTrip

/-!
# The request of a pipeline

* `Parameter.toJson_toDocument`  a parameter in the request;
* `Step.toJson_expand`           a step in the request that is sent;
* `Pipeline.toJson_expanded`     the four parts of the request that is sent;
* `Pipeline.isPlain_expanded`    only the metadata can leave something deferred in it;
* `Pipeline.read?_expanded`      the request that is sent reads back, in whatever layout.
-/

namespace Workflow

open Document

theorem Parameter.toJson_toDocument (q : Parameter) : q.toDocument.toJson =
    .object ([("Name", .string q.name), ("Type", .string q.kind.name)] ++
      (q.default?.map fun v => ("DefaultValue", v)).toList) := by
  obtain ⟨name, kind, default?⟩ := q
  cases default? with
  | none => rfl
  | some v =>
    show Json.object [("Name", .string name), ("Type", .string kind.name),
      ("DefaultValue", (ofJson v).toJson)] = _
    rw [toJson_ofJson]
    rfl

theorem Step.toJson_expand (s : Step) : s.toDocument.expand.toJson =
    .object [("Name", .string s.name), ("Type", .string s.kind.name),
      ("Arguments", s.arguments.expand.toJson)] := rfl

namespace Pipeline

theorem toJson_documentWith (p : Pipeline) (steps : Document) :
    (p.documentWith steps).toJson = .object
      [("Version", .string schemaVersion), ("Metadata", (object p.metadata).toJson),
        ("Parameters", .array (p.parameters.map fun q => q.toDocument.toJson)),
        ("Steps", steps.toJson)] := by
  have parameters : (list (p.parameters.map Parameter.toDocument)).toJson =
      .array (p.parameters.map fun q => q.toDocument.toJson) := by
    rw [list, toJson_sequence, List.map_map]
    rfl
  rw [← parameters]
  rfl

theorem toJson_expanded (p : Pipeline) : p.expanded.toJson = .object
    [("Version", .string schemaVersion), ("Metadata", (object p.metadata).toJson),
      ("Parameters", .array (p.parameters.map fun q => q.toDocument.toJson)),
      ("Steps", .array (p.steps.map fun s => s.toDocument.expand.toJson))] := by
  have steps : p.stepList.expand.toJson =
      .array (p.steps.map fun s => s.toDocument.expand.toJson) := by
    show Json.array (toJsonItems (expandItems (Entry.fragmentsOf p.entries))) = _
    rw [toJsonItems_eq, expandItems_eq, Entry.fragmentsOf_eq, List.map_map, List.map_map]
    rfl
  rw [expanded, toJson_documentWith, steps]

theorem isPlain_toDocument (q : Parameter) : q.toDocument.isPlain = true := by
  obtain ⟨name, kind, default?⟩ := q
  cases default? with
  | none => rfl
  | some v =>
    show ((ofJson v).isPlain && true) = true
    rw [isPlain_ofJson]
    rfl

/-- the steps are expanded, so only the metadata can hold something deferred -/
theorem isPlain_expanded (p : Pipeline) : p.expanded.isPlain = (object p.metadata).isPlain := by
  have parameters : (list (p.parameters.map Parameter.toDocument)).isPlain = true := by
    rw [list, isPlain_sequence_iff, List.forall_mem_map]
    exact fun q _ => isPlain_toDocument q
  show (true && ((object p.metadata).isPlain && ((list _).isPlain && (_ && true)))) = _
  rw [parameters, isPlain_expand]
  simp only [Bool.true_and, Bool.and_true]

end Pipeline

/-! ## the request of maps -/

theorem Parameter.keyedThroughout_toDocument {q : Parameter} (h : q.wellKeyed = true) :
    q.toDocument.keyedThroughout = true := by
  obtain ⟨name, kind, default?⟩ := q
  cases default? with
  | none => rfl
  | some v =>
    show (true && (true && (true && ((ofJson v).keyedThroughout && true)))) = true
    rw [keyedThroughout_ofJson (wellKeyed_iff.mp h v rfl)]
    rfl

theorem Step.keyedThroughout_toDocument {s : Step} (h : s.arguments.keyedThroughout = true) :
    s.toDocument.keyedThroughout = true := by
  show (true && (true && (true && (s.arguments.keyedThroughout && true)))) = true
  rw [h]
  rfl

namespace Pipeline

theorem WellKeyed.expanded {p : Pipeline} (h : p.WellKeyed) :
    p.expanded.keyedThroughout = true := by
  have parameters : (list (p.parameters.map Parameter.toDocument)).keyedThroughout = true := by
    rw [list, keyedThroughout_sequence_iff, List.forall_mem_map]
    exact fun q hq => Parameter.keyedThroughout_toDocument (h.defaults q hq)
  have steps : p.stepList.keyedThroughout = true := by
    rw [stepList, Entry.fragmentsOf_eq, list, keyedThroughout_sequence_iff, List.forall_mem_map]
    exact fun s hs => Step.keyedThroughout_toDocument (h.arguments s hs)
  show (true && (true && ((object p.metadata).keyedThroughout &&
    ((list _).keyedThroughout && (p.stepList.expand.keyedThroughout && true))))) = true
  rw [h.metadata, parameters, keyedThroughout_expand steps]
  rfl

/-- **The request that is sent reads back**, whatever the gaps in its text. -/
theorem read?_expanded (p : Pipeline.Keyed) {s : Json.Style} (hs : s.Blank) :
    Json.read? (p.val.expanded.toJson.text s) = some p.val.expanded.toJson :=
  Json.read?_text hs (Document.Keyed.toJson ⟨_, p.property.expanded⟩)

end Pipeline

end Workflow
