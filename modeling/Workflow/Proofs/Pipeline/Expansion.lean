import Workflow.Proofs.Document.NormalForm
import Workflow.Proofs.Pipeline.Request

/-!
# What is expanded in a request

The request that is sent is the plain request with the value of one key rewritten: its steps are
expanded. So it lies between the plain request, in which nothing is expanded, and the expansion of
the whole, in which the metadata are expanded too. On the wire it differs from the one if a set in
the arguments of a step loses an item, and from the other if a set in the metadata does.

* `Fields.update`                  one value rewritten, with its frame: the keys and all other values;
* `Pipeline.expanded_eq_update`    the request that is sent, from the plain one;
* `Pipeline.expand_stepList`       its steps;
* `Pipeline.keeps_documentWith`    when a request loses no item of a set;
* `Pipeline.expand_toDocument`     the expansion of the whole, from the request that is sent.
-/

namespace Workflow

/-! ## one field rewritten -/

namespace Fields

variable {α : Type}

/-- the fields with a function applied to the value of one key -/
def update (key : String) (f : α → α) (fields : List (String × α)) : List (String × α) :=
  fields.map fun p => if p.1 = key then (p.1, f p.2) else p

theorem keys_update (key : String) (f : α → α) (fields : List (String × α)) :
    keys (update key f fields) = keys fields := by
  rw [keys, update, List.map_map]
  apply List.map_congr_left
  intro p _
  show (if p.1 = key then (p.1, f p.2) else p).1 = p.1
  split <;> rfl

theorem get?_update (key k : String) (f : α → α) (fields : List (String × α)) :
    get? k (update key f fields) =
      if k = key then (get? k fields).map f else get? k fields := by
  induction fields with
  | nil => simp [update, get?]
  | cons p rest ih =>
    obtain ⟨l, v⟩ := p
    rw [update] at ih ⊢
    rw [List.map_cons]
    by_cases hl : l = k
    · by_cases hk : k = key
      · simp [get?, hl, hk]
      · simp [get?, hl, hk]
    · by_cases hkey : l = key
      · simp [get?, hkey ▸ hl, hkey, ih]
      · simp [get?, hl, hkey, ih]

end Fields

namespace Pipeline

open Document

/-- **The request that is sent is the plain one with its steps expanded**, in place. -/
theorem expanded_eq_update (p : Pipeline) : ∃ fields, p.toDocument = object fields ∧
    Fields.keys fields = ["Version", "Metadata", "Parameters", "Steps"] ∧
      p.expanded = object (Fields.update "Steps" expand fields) :=
  ⟨_, rfl, rfl, rfl⟩

theorem expand_stepList (p : Pipeline) : p.stepList.expand = list (p.steps.map fun s =>
    object [("Name", string s.name), ("Type", string s.kind.name),
      ("Arguments", s.arguments.expand)]) := by
  show (list (Entry.fragmentsOf p.entries)).expand =
    list ((Entry.stepsOf p.entries).map fun s => s.toDocument.expand)
  rw [list, expand_sequence, Entry.fragmentsOf_eq, List.map_map]
  rfl

/-! ## what a request can lose -/

theorem normal_parameterDocument (q : Parameter) : q.toDocument.Normal := by
  obtain ⟨name, kind, default?⟩ := q
  have written : (Parameter.toDocument ⟨name, kind, default?⟩).expand =
      Parameter.toDocument ⟨name, kind, default?⟩ := by
    cases default? with
    | none => rfl
    | some v =>
      show object [("Name", string name), ("Type", string kind.name),
        ("DefaultValue", (ofJson v).expand)] = _
      rw [ofJson_eq_expand]
      rfl
  exact expand_eq_self_iff.mp written

theorem normal_parameterList (p : Pipeline) :
    (list (p.parameters.map Parameter.toDocument)).Normal := by
  rw [list, normal_sequence_iff]
  refine ⟨rfl, ?_⟩
  intro d hd
  obtain ⟨q, -, rfl⟩ := List.mem_map.mp hd
  exact normal_parameterDocument q

theorem keeps_string (s : String) : (string s).Keeps := nofun

/-- version and parameters have no set, so metadata and steps decide -/
theorem keeps_documentWith (p : Pipeline) (steps : Document) :
    (p.documentWith steps).Keeps ↔ (object p.metadata).Keeps ∧ steps.Keeps := by
  have parameters := (normal_parameterList p).keeps
  have version := keeps_string schemaVersion
  simp only [documentWith, keeps_object_cons, keeps_object_nil, version, parameters, true_and,
    and_true]

theorem keeps_stepList (p : Pipeline) :
    p.stepList.Keeps ↔ ∀ s ∈ p.steps, s.arguments.Keeps := by
  have each : ∀ s : Step, s.toDocument.Keeps ↔ s.arguments.Keeps := by
    intro s
    simp only [Step.toDocument, keeps_object_cons, keeps_object_nil, keeps_string, true_and,
      and_true]
  rw [stepList, list, keeps_sequence_iff, Entry.fragmentsOf_eq]
  simp only [List.forall_mem_map, each]
  exact and_iff_right rfl

/-! ## the three requests on the wire -/

theorem expand_documentWith (p : Pipeline) (steps : Document) :
    (p.documentWith steps).expand = object
      [("Version", string schemaVersion), ("Metadata", (object p.metadata).expand),
        ("Parameters", (list (p.parameters.map Parameter.toDocument)).expand),
        ("Steps", steps.expand)] := rfl

/-- the expansion of the whole expands what the request that is sent has left -/
theorem expand_toDocument (p : Pipeline) : p.toDocument.expand = p.expanded.expand := by
  rw [toDocument, expanded, expand_documentWith, expand_documentWith, expand_expand]

theorem definition_eq_wire_expand (p : Pipeline) :
    p.definition = p.toDocument.expand.wire ↔ (object p.metadata).Keeps := by
  have steps := (normal_expand p.stepList).keeps
  rw [expand_toDocument, definition, wire, wire, Json.wire_inj, eq_comm, toJson_expand_iff, expanded,
    keeps_documentWith]
  exact and_iff_left steps

theorem definition_eq_wire_toDocument (p : Pipeline) :
    p.definition = p.toDocument.wire ↔ ∀ s ∈ p.steps, s.arguments.Keeps := by
  rw [← keeps_stepList, ← toJson_expand_iff, definition, wire, wire, Json.wire_inj, expanded,
    toDocument, toJson_documentWith, toJson_documentWith]
  simp only [Json.object.injEq, List.cons.injEq, Prod.mk.injEq, true_and, and_true]

/-- **What is expanded in a request and what is left.** The request that is sent has the keys of the
plain one and the same values but for the steps, which are all steps in order with their arguments
expanded; nothing is deferred in it exactly if nothing is in the metadata. Its text is that of the
expansion of the whole exactly if no set in the metadata loses an item in expansion, and that of the
plain request exactly if no set in the arguments of a step does. -/
theorem expanded_changes_steps (p : Pipeline) :
    (∃ fs gs, p.toDocument = object fs ∧ p.expanded = object gs ∧
        Fields.keys fs = ["Version", "Metadata", "Parameters", "Steps"] ∧
        Fields.keys gs = Fields.keys fs ∧
        (∀ key, key ≠ "Steps" → Fields.get? key gs = Fields.get? key fs) ∧
        Fields.get? "Steps" gs = some (list (p.steps.map fun s => object [("Name", string s.name),
          ("Type", string s.kind.name), ("Arguments", s.arguments.expand)]))) ∧
      (p.expanded.isPlain = true ↔ ∀ f ∈ p.metadata, f.2.isPlain = true) ∧
      (p.definition = p.toDocument.expand.wire ↔ ∀ f ∈ p.metadata, ∀ xs, f.2.HasSet xs →
        (distinct (xs.map expand)).length = xs.length) ∧
      (p.definition = p.toDocument.wire ↔ ∀ s ∈ p.steps, ∀ xs, s.arguments.HasSet xs →
        (distinct (xs.map expand)).length = xs.length) := by
  refine ⟨?_, ?_, ?_, ?_⟩
  · obtain ⟨fields, hplain, hkeys, hexpanded⟩ := expanded_eq_update p
    refine ⟨fields, _, hplain, hexpanded, hkeys, Fields.keys_update "Steps" expand fields, ?_, ?_⟩
    · intro key hkey
      rw [Fields.get?_update, if_neg hkey]
    · have steps : Fields.get? "Steps" fields = some p.stepList := by
        obtain rfl : _ = fields := object.inj hplain
        rfl
      rw [Fields.get?_update, if_pos rfl, steps, Option.map_some, expand_stepList]
  · rw [isPlain_expanded, isPlain_object_iff]
  · rw [definition_eq_wire_expand, keeps_object_iff]
    simp only [keeps_iff_length]
  · rw [definition_eq_wire_toDocument]
    simp only [keeps_iff_length]

end Pipeline

end Workflow
