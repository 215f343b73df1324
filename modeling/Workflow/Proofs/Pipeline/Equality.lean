import Workflow.Proofs.Pipeline.Request

/-!
# Equal pipelines are sent as equal documents

Pipelines that compare equal need not have one definition: fields may be in another order and a
zero may have the other sign. Nothing else can differ. The requests of equal pipelines are alike
part by part, and so are the values that a JSON reader gets from their definitions.

* `Step.Alike`                    steps that count as equal;
* `Pipeline.alike_expanded`       equal pipelines have like requests;
* `Pipeline.equality_respected`   from the comparison of documents to what is read back.
-/

namespace Workflow

open Document

theorem Parameter.Alike.toDocument {p q : Parameter} (h : p.Alike q) :
    Document.Alike p.toDocument q.toDocument := by
  obtain ⟨name, kind, default?⟩ := p
  obtain ⟨name', kind', default?'⟩ := q
  obtain ⟨hname, hkind, hdefault⟩ := h
  obtain rfl : name = name' := hname
  obtain rfl : kind = kind' := hkind
  have nameField := Alike.string name
  have typeField := Alike.string kind.name
  cases hdefault with
  | none =>
    have hkeys : ["Name", "Type"].Nodup := by decide
    exact alike_object_of_forall₂ hkeys (.cons ⟨rfl, nameField⟩ (.cons ⟨rfl, typeField⟩ .nil))
  | some hvw =>
    have hkeys : ["Name", "Type", "DefaultValue"].Nodup := by decide
    exact alike_object_of_forall₂ hkeys
      (.cons ⟨rfl, nameField⟩ (.cons ⟨rfl, typeField⟩ (.cons ⟨rfl, .ofJson hvw⟩ .nil)))

/-- steps with the same name and kind and with like arguments -/
structure Step.Alike (s t : Step) : Prop where
  name : s.name = t.name
  kind : s.kind = t.kind
  arguments : s.arguments.Alike t.arguments

namespace Step

theorem alike_of_same {s t : Step} (hs : s.arguments.keyedThroughout = true)
    (ht : t.arguments.keyedThroughout = true) (h : s.same t = true) : s.Alike t := by
  rw [same, Bool.and_eq_true, Bool.and_eq_true, beq_iff_eq, beq_iff_eq] at h
  exact ⟨h.1.1, h.1.2, (same_iff_alike hs ht).mp h.2⟩

theorem Alike.toDocument {s t : Step} (h : s.Alike t) :
    Document.Alike s.toDocument t.toDocument := by
  obtain ⟨name, kind, arguments⟩ := s
  obtain ⟨name', kind', arguments'⟩ := t
  obtain ⟨hname, hkind, harguments⟩ := h
  obtain rfl : name = name' := hname
  obtain rfl : kind = kind' := hkind
  have hkeys : ["Name", "Type", "Arguments"].Nodup := by decide
  exact alike_object_of_forall₂ hkeys
    (.cons ⟨rfl, .string name⟩ (.cons ⟨rfl, .string kind.name⟩ (.cons ⟨rfl, harguments⟩ .nil)))

end Step

namespace Entry

mutual

theorem steps_of_same {e f : Entry} (h : same e f = true) :
    List.Forall₂ (fun s t => s.same t = true) (steps e) (steps f) := by
  cases e with
  | step s =>
    cases f with
    | step t => exact .cons h .nil
    | group m fs => cases h
  | group n es =>
    cases f with
    | step t => cases h
    | group m fs =>
      rw [same, Bool.and_eq_true] at h
      exact stepsOf_of_same h.2

/-- entries compare equal only if the steps in them do, one by one -/
theorem stepsOf_of_same {es fs : List Entry} (h : sameEntries es fs = true) :
    List.Forall₂ (fun s t => s.same t = true) (stepsOf es) (stepsOf fs) := by
  cases es with
  | nil =>
    cases fs with
    | nil => exact .nil
    | cons f fs => cases h
  | cons e es =>
    cases fs with
    | nil => cases h
    | cons f fs =>
      rw [sameEntries, Bool.and_eq_true] at h
      exact List.rel_append (steps_of_same h.1) (stepsOf_of_same h.2)

end

end Entry

namespace Pipeline

theorem sameParameters_iff {ps qs : List Parameter} :
    sameParameters ps qs = true ↔ List.Forall₂ (fun p q => p.same q = true) ps qs :=
  forall₂_iff_of_cons rfl (fun _ _ => rfl) (fun _ _ => rfl) (fun _ _ _ _ => rfl)

variable {p q : Pipeline}

theorem alike_documentWith {steps steps' : Document}
    (hmetadata : (object p.metadata).Alike (object q.metadata))
    (hparameters : List.Forall₂ Parameter.Alike p.parameters q.parameters)
    (hsteps : steps.Alike steps') : (p.documentWith steps).Alike (q.documentWith steps') := by
  have parameters : (list (p.parameters.map Parameter.toDocument)).Alike
      (list (q.parameters.map Parameter.toDocument)) := by
    apply Alike.sequence
    exact forall₂_map_of_mem hparameters fun _ _ _ _ h => h.toDocument
  have hkeys : ["Version", "Metadata", "Parameters", "Steps"].Nodup := by decide
  exact alike_object_of_forall₂ hkeys
    (.cons ⟨rfl, .string schemaVersion⟩ (.cons ⟨rfl, hmetadata⟩
      (.cons ⟨rfl, parameters⟩ (.cons ⟨rfl, hsteps⟩ .nil))))

theorem alike_stepList (h : List.Forall₂ Step.Alike p.steps q.steps) :
    p.stepList.Alike q.stepList := by
  rw [stepList, stepList, Entry.fragmentsOf_eq, Entry.fragmentsOf_eq]
  apply Alike.sequence
  exact forall₂_map_of_mem h fun _ _ _ _ hst => hst.toDocument

theorem alike_expanded (hp : p.WellKeyed) (hq : q.WellKeyed) (h : p.same q = true) :
    p.expanded.Alike q.expanded := by
  rw [same, Bool.and_eq_true, Bool.and_eq_true, Bool.and_eq_true, sameParameters_iff] at h
  obtain ⟨⟨⟨-, hparameters⟩, hentries⟩, hmetadata⟩ := h
  have parameters : List.Forall₂ Parameter.Alike p.parameters q.parameters :=
    forall₂_imp_of_mem hparameters fun r hr s hs =>
      (Parameter.same_iff_alike (hp.defaults r hr) (hq.defaults s hs)).mp
  have steps : List.Forall₂ Step.Alike p.steps q.steps :=
    forall₂_imp_of_mem (Entry.stepsOf_of_same hentries) fun s hs t ht =>
      Step.alike_of_same (hp.arguments s hs) (hq.arguments t ht)
  have metadata := (same_iff_alike hp.metadata hq.metadata).mp hmetadata
  exact alike_documentWith metadata parameters (alike_stepList steps).expand

/-- **Equality is respected all the way to the wire.** Among documents the comparison is an equivalence
and sees how they are built but for the order of fields and the sign of zero; equal documents have
equal expansions; and the definitions of equal pipelines read back as values that are alike. -/
theorem equality_respected :
    (Equivalence fun a b : Document.Keyed => a.val.same b.val = true) ∧
      (∀ a b : Document.Keyed, (a.val.same b.val = true ↔ a.val.Alike b.val) ∧
        (a.val.same b.val = true → a.val.expand.same b.val.expand = true)) ∧
      ∀ p q : Pipeline.Keyed, p.val.same q.val = true →
        ∃ v w, Json.read? p.val.definition = some v ∧ Json.read? q.val.definition = some w ∧
          v.Alike w := by
  refine ⟨⟨?_, ?_, ?_⟩, ?_, ?_⟩
  · exact fun a => same_self a.property
  · exact fun {a b} => same_symm a.property b.property
  · exact fun {a b c} => same_trans a.property b.property c.property
  · intro a b
    exact ⟨same_iff_alike a.property b.property, same_expand a.property b.property⟩
  · intro p q hpq
    exact ⟨_, _, read?_expanded p Json.Style.blank_wire, read?_expanded q Json.Style.blank_wire,
      (alike_expanded p.property q.property hpq).toJson⟩

/-- fields in one order or the other, a zero of either sign, and a set that shrinks -/
def mirrored (s : Bool) : Document :=
  let rate := ("Rate", number (.float (.zero s)))
  let tags := ("Tags", set [parameter ⟨"p", .float, some (.number (.float (.zero s)))⟩,
    expression (getExpression "Parameters.p"), string "x"])
  object (if s then [rate, tags] else [tags, rate])

def mirroredEdits (s : Bool) : List Edit :=
  [.addParameter ⟨"p", .float, some (.number (.float (.zero s)))⟩, .setMetadata [("m", mirrored s)],
    .addEntry (.group none [.step ⟨"Train", .training, mirrored s⟩])]

def mirroredPipeline (s : Bool) : Pipeline := (mirroredEdits s).foldl editOrKeep ⟨"P", [], [], []⟩

theorem wellKeyed_mirroredPipeline (s : Bool) : (mirroredPipeline s).WellKeyed := by
  have start : empty "P" = .ok ⟨"P", [], [], []⟩ := rfl
  apply (wellKeyed_of_empty start).foldl_editOrKeep
  simp only [mirroredEdits, List.forall_mem_cons, Edit.WellKeyed, Entry.steps, Entry.stepsOf]
  cases s <;> exact ⟨rfl, by decide, by decide, List.forall_mem_nil _⟩

theorem equality_respected_mirrored :
    (mirrored true).expand.same (mirrored false).expand = true ∧
      ∃ v w, Json.read? (mirroredPipeline true).definition = some v ∧
        Json.read? (mirroredPipeline false).definition = some w ∧ v.Alike w := by
  refine ⟨?_, ?_⟩
  · exact (equality_respected.2.1 ⟨mirrored true, by decide⟩ ⟨mirrored false, by decide⟩).2
      (by decide)
  · exact equality_respected.2.2 ⟨_, wellKeyed_mirroredPipeline true⟩
      ⟨_, wellKeyed_mirroredPipeline false⟩ (by decide)

end Pipeline

end Workflow
