import Workflow.Document.Basic

/-!
# Expansion

Expanding a document replaces every deferred node by the document of its expression. Kinds of
containers, keys and order stay; a set is made distinct again, because items that differ before may
be equal after.

* `Document.expand`            the expanded document;
* `Document.isPlain_expand`    nothing deferred is left;
* `Document.ofJson_eq_expand`  JSON data is its own expansion.
-/

namespace Workflow.Document

mutual

/-- the document with every deferred node replaced by its expression -/
def expand : Document → Document
  | sequence .set xs => set (expandItems xs)
  | sequence k xs => sequence k (expandItems xs)
  | object fs => object (expandFields fs)
  | deferred d => ofJson d.toJson
  | d => d

def expandItems : List Document → List Document
  | [] => []
  | x :: xs => expand x :: expandItems xs

def expandFields : List (String × Document) → List (String × Document)
  | [] => []
  | (k, v) :: rest => (k, expand v) :: expandFields rest

end

theorem expandItems_eq (xs : List Document) : expandItems xs = xs.map expand := by
  induction xs with
  | nil => rfl
  | cons x xs ih => simp [expandItems, ih]

theorem expandFields_eq (fs : List (String × Document)) :
    expandFields fs = fs.map fun f => (f.1, expand f.2) := by
  induction fs with
  | nil => rfl
  | cons f fs ih => simp [expandFields, ih]

theorem distinctAfter_sublist (seen xs : List Document) : (distinctAfter seen xs).Sublist xs := by
  induction xs generalizing seen with
  | nil => exact List.Sublist.slnil
  | cons x xs ih =>
    simp only [distinctAfter]
    split
    · exact (ih seen).cons x
    · exact (ih (x :: seen)).cons_cons x

theorem distinct_sublist (xs : List Document) : (distinct xs).Sublist xs :=
  distinctAfter_sublist [] xs

theorem isPlain_expand (d : Document) : d.expand.isPlain = true := by
  induction d using induct with
  | null => rfl
  | bool b => rfl
  | number n => rfl
  | string s => rfl
  | sequence k xs ih =>
    have all : ∀ y ∈ expandItems xs, y.isPlain = true := by
      intro y hy
      rw [expandItems_eq, List.mem_map] at hy
      obtain ⟨x, hx, rfl⟩ := hy
      exact ih x hx
    cases k with
    | list => exact isPlain_sequence_iff.mpr all
    | tuple => exact isPlain_sequence_iff.mpr all
    | set => exact isPlain_sequence_iff.mpr fun y hy => all y ((distinct_sublist _).subset hy)
  | object fs ih =>
    rw [expand, expandFields_eq, isPlain_object_iff, List.forall_mem_map]
    exact ih
  | deferred d => exact isPlain_ofJson _

theorem ofJson_eq_expand (v : Json) : (ofJson v).expand = ofJson v := by
  induction v using Json.induct with
  | null => rfl
  | bool b => rfl
  | number n => rfl
  | string s => rfl
  | array xs ih =>
    simp only [ofJson, expand, ofJsonItems_eq, expandItems_eq, List.map_map,
      Document.sequence.injEq, true_and]
    exact List.map_congr_left ih
  | object fs ih =>
    simp only [ofJson, expand, ofJsonFields_eq, expandFields_eq, List.map_map,
      Document.object.injEq]
    exact List.map_congr_left fun f hf => by simp [ih f hf]

end Workflow.Document
