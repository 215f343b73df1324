import Workflow.Proofs.Json.RoundTrip
import Workflow.Proofs.Pipeline.Request

/-!
# The definition identifies the content

Two pipelines have the same definition exactly if they have the same content: parameters, metadata
and steps, each in order. What is deferred counts by its expression, arguments by their expansion;
the name of a pipeline and the grouping of its steps are not in the definition, and all else is.

* `Parameter.toJson_inj`          a parameter can be read off its request form;
* `Step.Content`                  what the request has of a step;
* `Pipeline.definition_inj`       the definition is the content and nothing else.
-/

namespace Workflow

open Document

theorem ValueKind.name_inj {k l : ValueKind} : k.name = l.name ↔ k = l := by
  rw [← ofName?_eq_some_iff, ofName?_eq_some_iff.mpr rfl, Option.some_inj, eq_comm]

theorem StepKind.name_inj {k l : StepKind} : k.name = l.name ↔ k = l := by
  rw [← ofName?_eq_some_iff, ofName?_eq_some_iff.mpr rfl, Option.some_inj, eq_comm]

theorem Parameter.toJson_inj {p q : Parameter} :
    p.toDocument.toJson = q.toDocument.toJson ↔ p = q := by
  constructor
  · intro h
    obtain ⟨name, kind, default?⟩ := p
    obtain ⟨name', kind', default?'⟩ := q
    rw [toJson_toDocument, toJson_toDocument] at h
    simp only [List.cons_append, List.nil_append, Json.object.injEq, List.cons.injEq, Prod.mk.injEq,
      Json.string.injEq, true_and, ValueKind.name_inj] at h
    obtain ⟨rfl, rfl, hdefault⟩ := h
    -- a default is there or not, and if it is there it is the only further field
    cases default? with
    | none =>
      cases default?' with
      | none => rfl
      | some w => exact absurd hdefault (by simp)
    | some v =>
      cases default?' with
      | none => exact absurd hdefault (by simp)
      | some w =>
        obtain rfl : v = w := by simpa using hdefault
        rfl
  · rintro rfl
    rfl

structure Step.Content where
  name : String
  kind : StepKind
  /-- the expanded arguments on the wire -/
  arguments : Json

namespace Step

def Content.toJson (c : Content) : Json :=
  .object [("Name", .string c.name), ("Type", .string c.kind.name), ("Arguments", c.arguments)]

def content (s : Step) : Content := ⟨s.name, s.kind, s.arguments.expand.toJson⟩

theorem Content.toJson_inj {c d : Content} : c.toJson = d.toJson ↔ c = d := by
  constructor
  · intro h
    obtain ⟨name, kind, arguments⟩ := c
    obtain ⟨name', kind', arguments'⟩ := d
    simp only [toJson, Json.object.injEq, List.cons.injEq, Prod.mk.injEq, Json.string.injEq,
      true_and, and_true, StepKind.name_inj] at h
    obtain ⟨rfl, rfl, rfl⟩ := h
    rfl
  · rintro rfl
    rfl

end Step

namespace Pipeline

theorem toJson_steps (p : Pipeline) : p.steps.map (fun s => s.toDocument.expand.toJson) =
    (p.steps.map Step.content).map Step.Content.toJson := by
  rw [List.map_map]
  rfl

/-- **Pipelines have one definition exactly if they have one content**: the same parameters, the
same metadata on the wire, and the same steps up to expansion of their arguments, all in order. -/
theorem definition_inj {p q : Pipeline} : p.definition = q.definition ↔
    p.parameters = q.parameters ∧ (object p.metadata).toJson = (object q.metadata).toJson ∧
      p.steps.map Step.content = q.steps.map Step.content := by
  have parameters : p.parameters.map (fun r => r.toDocument.toJson) =
      q.parameters.map (fun r => r.toDocument.toJson) ↔ p.parameters = q.parameters :=
    List.map_inj_right fun _ _ => Parameter.toJson_inj.mp
  have steps : p.steps.map (fun s => s.toDocument.expand.toJson) =
      q.steps.map (fun s => s.toDocument.expand.toJson) ↔
        p.steps.map Step.content = q.steps.map Step.content := by
    rw [toJson_steps, toJson_steps]
    exact List.map_inj_right fun _ _ => Step.Content.toJson_inj.mp
  rw [definition, definition, Document.wire, Document.wire, Json.wire_inj, toJson_expanded,
    toJson_expanded, ← parameters, ← steps]
  simp only [Json.object.injEq, List.cons.injEq, Prod.mk.injEq, Json.array.injEq, true_and, and_true]
  constructor
  · rintro ⟨hmetadata, hparameters, hsteps⟩
    exact ⟨hparameters, hmetadata, hsteps⟩
  · rintro ⟨hparameters, hmetadata, hsteps⟩
    exact ⟨hmetadata, hparameters, hsteps⟩

end Pipeline

end Workflow
