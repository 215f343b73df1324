import Workflow.Proofs.Document.Distinct
import Workflow.Proofs.Document.Location

/-!
# The shape of an expanded document

Apart from the items that a set may lose, nothing of a document gets lost or moved when it is
expanded, and nothing is added but below a deferred node. So a part is found in the expansion where
it was found before, expanded, and what is not found before is not found after, unless the way leads
on from a deferred node.

* `Document.Unhindered`         no deferred node is passed on the way;
* `Document.part?_expand`       one step of the way;
* `Document.at?_expand`         the whole way;
* `Document.shape_of_expand`    what is found at a location, by the kind of node.
-/

namespace Workflow.Document

/-- no node before the end of the way is deferred -/
def Unhindered (d : Document) (loc : Location) : Prop :=
  ∀ i < loc.length, (d.at? (loc.take i)).any isDeferred = false

instance (d : Document) (loc : Location) : Decidable (d.Unhindered loc) :=
  inferInstanceAs (Decidable (∀ i < loc.length, (d.at? (loc.take i)).any isDeferred = false))

/-- the parts of a node that is not deferred are expanded where they are -/
theorem part?_expand {d : Document} (hd : d.isDeferred = false) (s : Selector) :
    d.expand.part? s = (d.part? s).map expand := by
  cases d with
  | sequence k xs =>
    rw [expand_sequence]
    cases s with
    | key name => cases k <;> rfl
    | index i =>
      cases k with
      | set => rfl
      | list => exact List.getElem?_map
      | tuple => exact List.getElem?_map
  | object fs =>
    rw [expand_object]
    cases s with
    | key name => exact Fields.get?_map expand name fs
    | index i => rfl
  | deferred t => cases hd
  | _ => cases s <;> rfl

theorem Unhindered.tail {d e : Document} {s : Selector} {rest : Location}
    (h : d.Unhindered (s :: rest)) (he : d.part? s = some e) : e.Unhindered rest := by
  intro i hi
  have hnext := h (i + 1) (Nat.succ_lt_succ hi)
  rw [List.take_succ_cons, at?_cons, he] at hnext
  exact hnext

/-- **What is found in the expansion is the expansion of what is found in the document**, and where
nothing is found in the one, nothing is found in the other. -/
theorem at?_expand {d : Document} {loc : Location} (h : d.Unhindered loc) :
    d.expand.at? loc = (d.at? loc).map expand := by
  induction loc generalizing d with
  | nil => rfl
  | cons s rest ih =>
    have hd : d.isDeferred = false := h 0 (Nat.succ_pos _)
    rw [at?_cons, at?_cons, part?_expand hd]
    cases he : d.part? s with
    | none => rfl
    | some e => exact ih (h.tail he)

/-- a way that leads anywhere passes no deferred node, which has no parts -/
theorem unhindered_of_at? {d e : Document} {loc : Location} (h : d.at? loc = some e) :
    d.Unhindered loc := by
  induction loc generalizing d with
  | nil => exact fun i hi => absurd hi (Nat.not_lt_zero i)
  | cons s rest ih =>
    rw [at?_cons, Option.bind_eq_some_iff] at h
    obtain ⟨part, hpart, hrest⟩ := h
    intro i hi
    cases i with
    | zero =>
      show d.isDeferred = false
      cases d with
      | deferred t => cases hpart
      | _ => rfl
    | succ i =>
      rw [List.take_succ_cons, at?_cons, hpart]
      exact ih hrest i (Nat.lt_of_succ_lt_succ hi)

theorem at?_expand_of_at? {d e : Document} {loc : Location} (h : d.at? loc = some e) :
    d.expand.at? loc = some e.expand := by
  rw [at?_expand (unhindered_of_at? h), h]
  rfl

/-- **Expansion keeps the shape of a document.** Along a way that passes no deferred node it changes
nothing but the node at the end; an object there has its keys in their order, a list or a tuple its
items in theirs, a set has some of its items in theirs, and a deferred node becomes its expression,
item by item. -/
theorem shape_of_expand (d : Document) (loc : Location) :
    (d.Unhindered loc → d.expand.at? loc = (d.at? loc).map expand) ∧
      (∀ fs, d.at? loc = some (object fs) →
        ∃ gs, d.expand.at? loc = some (object gs) ∧ Fields.keys gs = Fields.keys fs) ∧
      (∀ k xs, d.at? loc = some (sequence k xs) →
        ∃ ys, d.expand.at? loc = some (sequence k ys) ∧ ys.Sublist (xs.map expand) ∧
          (k ≠ .set → ys = xs.map expand)) ∧
      ∀ t, d.at? loc = some (deferred t) →
        ∃ e, d.expand.at? loc = some e ∧ e = ofJson t.toJson ∧ e.toJson = t.toJson := by
  refine ⟨at?_expand, ?_, ?_, ?_⟩
  · intro fs h
    have hat := at?_expand_of_at? h
    rw [expand_object] at hat
    exact ⟨_, hat, Fields.keys_map expand fs⟩
  · intro k xs h
    have hat := at?_expand_of_at? h
    rw [expand_sequence] at hat
    refine ⟨_, hat, k.keep_sublist _, ?_⟩
    intro hk
    rw [k.keep_eq_self_iff]
    exact fun hset => absurd hset hk
  · intro t h
    exact ⟨_, at?_expand_of_at? h, rfl, toJson_ofJson t.toJson⟩

/-- a list and a set with references to one parameter in a tuple, and an expression with an item
twice -/
def references : Document :=
  object [("Data", tuple [list [string "x", parameter ⟨"Rate", .float, none⟩, string "x"],
      set [parameter ⟨"Rate", .float, none⟩, expression (getExpression "Parameters.Rate")]]),
    ("Join", expression (.array [.bool true, .bool true]))]

theorem shape_of_expand_references :
    references.expand.at? [.key "Data", .index 0, .index 1] =
        some (ofJson (getExpression "Parameters.Rate")) ∧
      references.expand.at? [.key "Data", .index 0, .index 3] = none ∧
      (∃ ys, references.expand.at? [.key "Data", .index 1] = some (sequence .set ys)) ∧
      references.expand.at? [.key "Join"] = some (list [bool true, bool true]) := by
  have hrate := (shape_of_expand references [.key "Data", .index 0, .index 1]).1 (by decide)
  have hnone := (shape_of_expand references [.key "Data", .index 0, .index 3]).1 (by decide)
  obtain ⟨ys, hset, -⟩ := (shape_of_expand references [.key "Data", .index 1]).2.2.1 .set _ rfl
  obtain ⟨e, hjoin, rfl, -⟩ := (shape_of_expand references [.key "Join"]).2.2.2 _ rfl
  exact ⟨hrate, hnone, ⟨ys, hset⟩, hjoin⟩

end Workflow.Document
