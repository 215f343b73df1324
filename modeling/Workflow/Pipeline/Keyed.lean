import Workflow.Document.Keyed
import Workflow.Pipeline.Basic

/-!
# Pipelines of maps

A pipeline starts empty and is changed piece by piece. If no key is there twice in what the changes
bring, none is there twice in the pipeline, whether the changes are taken or refused.

* `Pipeline.WellKeyed`              no object of the pipeline has a key twice;
* `Pipeline.Keyed`                  such pipelines;
* `Pipeline.wellKeyed_of_empty`     an empty pipeline is one of them;
* `WellKeyed.foldl_editOrKeep`      and stays one over any changes with maps.
-/

namespace Workflow

/-- in what the change brings no object has a key twice -/
def Edit.WellKeyed : Edit → Prop
  | .addParameter q => q.wellKeyed = true
  | .setParameters qs => ∀ q ∈ qs, q.wellKeyed = true
  | .addEntry e => ∀ s ∈ e.steps, s.arguments.keyedThroughout = true
  | .setEntries es => ∀ s ∈ Entry.stepsOf es, s.arguments.keyedThroughout = true
  | .setMetadata fields => (Document.object fields).keyedThroughout = true
  | .rename _ => True

namespace Pipeline

/-- no object has a key twice: in the metadata, in a default and in the arguments of a step -/
structure WellKeyed (p : Pipeline) : Prop where
  metadata : (Document.object p.metadata).keyedThroughout = true
  defaults : ∀ q ∈ p.parameters, q.wellKeyed = true
  arguments : ∀ s ∈ p.steps, s.arguments.keyedThroughout = true

/-- pipelines in which no key is there twice -/
abbrev Keyed := {p : Pipeline // p.WellKeyed}

theorem wellKeyed_of_empty {name : String} {p : Pipeline} (h : empty name = .ok p) :
    p.WellKeyed := by
  rw [empty] at h
  split at h
  · cases h
  · obtain rfl := Except.ok.inj h
    exact ⟨rfl, List.forall_mem_nil _, List.forall_mem_nil _⟩

theorem WellKeyed.editOrKeep {p : Pipeline} (h : p.WellKeyed) {e : Edit} (he : e.WellKeyed) :
    (p.editOrKeep e).WellKeyed := by
  cases e with
  | addParameter q =>
    rw [Pipeline.editOrKeep, pushParameter]
    split
    · exact h
    · refine ⟨h.metadata, ?_, h.arguments⟩
      rw [List.forall_mem_append, List.forall_mem_singleton]
      exact ⟨h.defaults, he⟩
  | setParameters qs =>
    simp only [Pipeline.editOrKeep, edit, withParameters]
    cases repeatedName? [] (qs.map Parameter.name) with
    | none => exact ⟨h.metadata, he, h.arguments⟩
    | some n => exact h
  | addEntry e =>
    refine ⟨h.metadata, h.defaults, ?_⟩
    have opened : (p.addEntry e).steps = p.steps ++ e.steps := by
      rw [steps, addEntry, Entry.stepsOf_append, steps, Entry.stepsOf, Entry.stepsOf,
        List.append_nil]
    show ∀ s ∈ (p.addEntry e).steps, s.arguments.keyedThroughout = true
    rw [opened, List.forall_mem_append]
    exact ⟨h.arguments, he⟩
  | setEntries es => exact ⟨h.metadata, h.defaults, he⟩
  | setMetadata fields => exact ⟨he, h.defaults, h.arguments⟩
  | rename name => exact ⟨h.metadata, h.defaults, h.arguments⟩

/-- **No key is twice in a pipeline that maps are put into**, in whatever order and number. -/
theorem WellKeyed.foldl_editOrKeep {p : Pipeline} (h : p.WellKeyed) {edits : List Edit}
    (hedits : ∀ e ∈ edits, e.WellKeyed) : (edits.foldl Pipeline.editOrKeep p).WellKeyed := by
  induction edits generalizing p with
  | nil => exact h
  | cons e edits ih =>
    obtain ⟨first, rest⟩ := List.forall_mem_cons.mp hedits
    exact ih (h.editOrKeep first) rest

end Pipeline

end Workflow
