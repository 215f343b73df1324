import Workflow.Document.Basic
import Workflow.Json.Keyed

/-!
# Documents whose objects are maps

Documents are put together from maps, like the data that is sent for them. So in none of their
objects a key is there twice, nor in an expression or in the default of a parameter.

* `Document.keyedThroughout`   no key twice, at any depth;
* `Document.Keyed`             such documents;
* `Document.Keyed.toJson`      the data for one of them, in which no key is twice either.
-/

namespace Workflow

def Parameter.wellKeyed (p : Parameter) : Bool := p.default?.all Json.wellKeyed

theorem Parameter.wellKeyed_iff {p : Parameter} :
    p.wellKeyed = true ↔ ∀ v ∈ p.default?, v.wellKeyed = true := by
  rw [wellKeyed, Option.all_eq_true]
  rfl

namespace Deferred

def wellKeyed : Deferred → Bool
  | parameter p => p.wellKeyed
  | property _ => true
  | expression value => value.wellKeyed

/-- of a parameter or a property there is only one key in the expression -/
theorem wellKeyed_toJson {d : Deferred} (h : d.wellKeyed = true) : d.toJson.wellKeyed = true := by
  cases d with
  | parameter p => rfl
  | property p => rfl
  | expression value => exact h

end Deferred

namespace Document

mutual

/-- no object at any depth has a key twice, nor has one in an expression or in the default of a
parameter -/
def keyedThroughout : Document → Bool
  | sequence _ xs => keyedThroughoutItems xs
  | object fs => decide (Fields.keys fs).Nodup && keyedThroughoutFields fs
  | deferred d => d.wellKeyed
  | _ => true

def keyedThroughoutItems : List Document → Bool
  | [] => true
  | x :: xs => keyedThroughout x && keyedThroughoutItems xs

def keyedThroughoutFields : List (String × Document) → Bool
  | [] => true
  | (_, v) :: rest => keyedThroughout v && keyedThroughoutFields rest

end

theorem keyedThroughout_sequence_iff {k : SequenceKind} {xs : List Document} :
    (sequence k xs).keyedThroughout = true ↔ ∀ x ∈ xs, x.keyedThroughout = true := by
  have hitems : keyedThroughoutItems xs = xs.all keyedThroughout := by
    induction xs with
    | nil => rfl
    | cons x xs ih => rw [keyedThroughoutItems, ih, List.all_cons]
  rw [keyedThroughout, hitems, List.all_eq_true]

theorem keyedThroughout_object_iff {fs : List (String × Document)} :
    (object fs).keyedThroughout = true ↔
      (Fields.keys fs).Nodup ∧ ∀ f ∈ fs, f.2.keyedThroughout = true := by
  have hfields : keyedThroughoutFields fs = fs.all fun f => f.2.keyedThroughout := by
    induction fs with
    | nil => rfl
    | cons f fs ih => rw [keyedThroughoutFields, ih, List.all_cons]
  rw [keyedThroughout, hfields, Bool.and_eq_true, decide_eq_true_eq, List.all_eq_true]

theorem wellKeyed_toJson {d : Document} (h : d.keyedThroughout = true) :
    d.toJson.wellKeyed = true := by
  induction d using induct with
  | sequence k xs ih =>
    rw [keyedThroughout_sequence_iff] at h
    rw [toJson_sequence, Json.wellKeyed_array_iff, List.forall_mem_map]
    exact fun x hx => ih x hx (h x hx)
  | object fs ih =>
    rw [keyedThroughout_object_iff] at h
    rw [toJson_object, Json.wellKeyed_object_iff, Fields.keys_map, List.forall_mem_map]
    exact ⟨h.1, fun f hf => ih f hf (h.2 f hf)⟩
  | deferred d => exact Deferred.wellKeyed_toJson h
  | _ => rfl

theorem keyedThroughout_ofJson {v : Json} (h : v.wellKeyed = true) :
    (ofJson v).keyedThroughout = true := by
  induction v using Json.induct with
  | array xs ih =>
    rw [Json.wellKeyed_array_iff] at h
    rw [ofJson, ofJsonItems_eq, keyedThroughout_sequence_iff, List.forall_mem_map]
    exact fun x hx => ih x hx (h x hx)
  | object fs ih =>
    rw [Json.wellKeyed_object_iff] at h
    rw [ofJson, ofJsonFields_eq, keyedThroughout_object_iff, Fields.keys_map, List.forall_mem_map]
    exact ⟨h.1, fun f hf => ih f hf (h.2 f hf)⟩
  | _ => rfl

/-- documents in which no key is there twice -/
abbrev Keyed := {d : Document // d.keyedThroughout = true}

/-- what is sent for the document -/
def Keyed.toJson (d : Keyed) : Json.Keyed := ⟨d.val.toJson, wellKeyed_toJson d.property⟩

end Document

end Workflow
