import Mathlib.Algebra.Order.BigOperators.Group.List
import Workflow.Proofs.Document.Distinct
import Workflow.Proofs.Json.RoundTrip

/-!
# Expansion on the wire

A deferred node is written as its expression, and that is also what expansion puts in its place. So
a document and its expansion have the same text, unless a set loses items because they have become
equal; then the text of the expansion is shorter, by a comma at least for every item.

* `Document.HasSet`                 the items of a set at some depth;
* `Document.Keeps`                  no items of a set become equal;
* `Document.toJson_expand`          then the data on the wire are the same;
* `Document.shrinks_of_not_keeps`   otherwise the text is shorter, in any style;
* `Document.wire_expand`            the texts are the same exactly if no set loses an item.
-/

namespace Workflow

/-! ## the length of a container -/

namespace Json

variable (s : Style) (depth : Nat)

/-- the length of an item with the comma in front of it -/
def itemLength (v : Json) : Nat := 1 + (s.between depth).length + (render s depth v).length

/-- the length of a field with the comma in front of it -/
def fieldLength (f : String × Json) : Nat :=
  (s.escape.quote f.1).length + 1 + s.valued.length + itemLength s depth f.2

theorem length_renderItems (xs : List Json) :
    (renderItems s depth xs).length = (xs.map (itemLength s depth)).sum := by
  induction xs with
  | nil => rfl
  | cons x xs ih =>
    rw [renderItems, List.map_cons, List.sum_cons, ← ih, itemLength]
    simp only [List.length_cons, List.length_append]
    omega

theorem length_renderFields (fs : List (String × Json)) :
    (renderFields s depth fs).length = (fs.map (fieldLength s depth)).sum := by
  induction fs with
  | nil => rfl
  | cons f fs ih =>
    rw [renderFields, List.map_cons, List.sum_cons, ← ih, fieldLength, itemLength]
    simp only [List.length_cons, List.length_append]
    omega

/-- as if there were a comma in front of the first item too -/
theorem length_render_array {xs : List Json} (h : xs ≠ []) :
    (render s depth (array xs)).length + (1 + (s.between (depth + 1)).length) =
      2 + (s.opened (depth + 1)).length + (s.closing depth).length +
        (xs.map (itemLength s (depth + 1))).sum := by
  cases xs with
  | nil => exact absurd rfl h
  | cons x xs =>
    rw [render, List.map_cons, List.sum_cons, ← length_renderItems, itemLength]
    simp only [List.length_cons, List.length_append, List.length_nil]
    omega

theorem length_render_object {fs : List (String × Json)} (h : fs ≠ []) :
    (render s depth (object fs)).length + (1 + (s.between (depth + 1)).length) =
      2 + (s.opened (depth + 1)).length + (s.closing depth).length +
        (fs.map (fieldLength s (depth + 1))).sum := by
  cases fs with
  | nil => exact absurd rfl h
  | cons f fs =>
    rw [render, List.map_cons, List.sum_cons, ← length_renderFields, fieldLength, itemLength]
    simp only [List.length_cons, List.length_append, List.length_nil]
    omega

theorem length_render_array_lt {xs ys : List Json} (hxs : xs ≠ [])
    (h : (xs.map (itemLength s (depth + 1))).sum < (ys.map (itemLength s (depth + 1))).sum) :
    (render s depth (array xs)).length < (render s depth (array ys)).length := by
  have hys : ys ≠ [] := by
    rintro rfl
    exact absurd h (Nat.not_lt_zero _)
  have hshort := length_render_array s depth hxs
  have hlong := length_render_array s depth hys
  omega

theorem length_render_object_lt {fs gs : List (String × Json)} (hfs : fs ≠ [])
    (h : (fs.map (fieldLength s (depth + 1))).sum < (gs.map (fieldLength s (depth + 1))).sum) :
    (render s depth (object fs)).length < (render s depth (object gs)).length := by
  have hgs : gs ≠ [] := by
    rintro rfl
    exact absurd h (Nat.not_lt_zero _)
  have hshort := length_render_object s depth hfs
  have hlong := length_render_object s depth hgs
  omega

end Json

/-- items that are left out are missing in a sum of positive numbers -/
theorem sum_map_lt_of_sublist {α : Type} {f : α → Nat} (hf : ∀ x, 0 < f x) {xs ys : List α}
    (h : xs.Sublist ys) (hne : xs ≠ ys) : (xs.map f).sum < (ys.map f).sum := by
  induction h with
  | slnil => exact absurd rfl hne
  | cons y h ih =>
    have hle := (h.map f).sum_le_sum fun _ _ => Nat.zero_le _
    have hy := hf y
    rw [List.map_cons, List.sum_cons]
    omega
  | cons_cons y h ih =>
    have hlt := ih fun e => hne (congrArg (y :: ·) e)
    rw [List.map_cons, List.map_cons, List.sum_cons, List.sum_cons]
    omega

namespace Document

/-- the items of a set at some depth of the document, itself included -/
inductive HasSet : Document → List Document → Prop where
  | here {xs : List Document} : HasSet (sequence .set xs) xs
  | item {k : SequenceKind} {xs ys : List Document} {x : Document} (hx : x ∈ xs) (h : HasSet x ys) :
      HasSet (sequence k xs) ys
  | field {fs : List (String × Document)} {f : String × Document} {ys : List Document} (hf : f ∈ fs)
      (h : HasSet f.2 ys) : HasSet (object fs) ys

/-- what holds of all sets in a sequence holds of the sequence, if it is a set, and of those in it -/
theorem forall_hasSet_sequence {P : List Document → Prop} {k : SequenceKind}
    {xs : List Document} : (∀ ys, (sequence k xs).HasSet ys → P ys) ↔
      (k = .set → P xs) ∧ ∀ x ∈ xs, ∀ ys, x.HasSet ys → P ys := by
  constructor
  · intro h
    refine ⟨?_, fun x hx ys hys => h ys (.item hx hys)⟩
    rintro rfl
    exact h xs .here
  · rintro ⟨hk, hxs⟩ ys hys
    cases hys with
    | here => exact hk rfl
    | item hx hys => exact hxs _ hx ys hys

theorem forall_hasSet_object {P : List Document → Prop} {fs : List (String × Document)} :
    (∀ ys, (object fs).HasSet ys → P ys) ↔ ∀ f ∈ fs, ∀ ys, f.2.HasSet ys → P ys := by
  constructor
  · intro h f hf ys hys
    exact h ys (.field hf hys)
  · intro h ys hys
    cases hys with
    | field hf hys => exact h _ hf ys hys

/-- no two items of a set become equal when they are expanded -/
def Keeps (d : Document) : Prop :=
  ∀ xs, d.HasSet xs → (xs.map expand).Pairwise fun x y => x.same y = false

theorem keeps_sequence_iff {k : SequenceKind} {xs : List Document} :
    (sequence k xs).Keeps ↔ k.keep (xs.map expand) = xs.map expand ∧ ∀ x ∈ xs, x.Keeps := by
  rw [SequenceKind.keep_eq_self_iff]
  exact forall_hasSet_sequence

theorem keeps_object_iff {fs : List (String × Document)} :
    (object fs).Keeps ↔ ∀ f ∈ fs, f.2.Keeps := forall_hasSet_object

theorem keeps_object_nil : (object []).Keeps := keeps_object_iff.mpr nofun

theorem keeps_object_cons {k : String} {d : Document} {fs : List (String × Document)} :
    (object ((k, d) :: fs)).Keeps ↔ d.Keeps ∧ (object fs).Keeps := by
  rw [keeps_object_iff, List.forall_mem_cons, keeps_object_iff]

/-! ## nothing is lost -/

/-- **The data on the wire are the same** if no set loses an item. -/
theorem toJson_expand {d : Document} (h : d.Keeps) : d.expand.toJson = d.toJson := by
  induction d using induct with
  | null => rfl
  | bool b => rfl
  | number n => rfl
  | string s => rfl
  | sequence k xs ih =>
    obtain ⟨hk, hxs⟩ := keeps_sequence_iff.mp h
    rw [expand_sequence, hk, toJson_sequence, toJson_sequence, List.map_map]
    congr 1
    apply List.map_congr_left
    intro x hx
    exact ih x hx (hxs x hx)
  | object fs ih =>
    rw [expand_object, toJson_object, toJson_object, List.map_map]
    congr 1
    apply List.map_congr_left
    intro f hf
    show (f.1, f.2.expand.toJson) = (f.1, f.2.toJson)
    rw [ih f hf (keeps_object_iff.mp h f hf)]
  | deferred d => exact toJson_ofJson d.toJson

/-! ## something is lost -/

/-- the text of the expansion is shorter than that of the document -/
def Shrinks (s : Json.Style) (d : Document) : Prop :=
  ∀ depth, (Json.render s depth d.expand.toJson).length < (Json.render s depth d.toJson).length

section
variable {s : Json.Style}

open Json (itemLength fieldLength)

theorem itemLength_expand_le {x : Document} (ih : ¬ x.Keeps → x.Shrinks s) (depth : Nat) :
    itemLength s depth x.expand.toJson ≤ itemLength s depth x.toJson := by
  rw [itemLength, itemLength]
  by_cases hx : x.Keeps
  · rw [toJson_expand hx]
  · have hlt := ih hx depth
    omega

theorem sum_itemLength_lt {k : SequenceKind} {xs : List Document}
    (ih : ∀ x ∈ xs, ¬ x.Keeps → x.Shrinks s) (h : ¬ (sequence k xs).Keeps) (depth : Nat) :
    ((k.keep (xs.map expand)).map fun x => itemLength s depth x.toJson).sum <
      (xs.map fun x => itemLength s depth x.toJson).sum := by
  have items : ∀ x ∈ xs, itemLength s depth x.expand.toJson ≤ itemLength s depth x.toJson :=
    fun x hx => itemLength_expand_le (ih x hx) depth
  by_cases hk : k.keep (xs.map expand) = xs.map expand
  · -- nothing is left out here, so an item loses something
    rw [keeps_sequence_iff] at h
    have hitem : ∃ x ∈ xs, ¬ x.Keeps := by
      by_contra hnone
      push Not at hnone
      exact h ⟨hk, hnone⟩
    obtain ⟨x, hx, hloss⟩ := hitem
    rw [hk, List.map_map]
    refine List.sum_lt_sum _ _ items ⟨x, hx, ?_⟩
    have hlt := ih x hx hloss depth
    show itemLength s depth x.expand.toJson < itemLength s depth x.toJson
    rw [itemLength, itemLength]
    omega
  · have positive : ∀ x : Document, 0 < itemLength s depth x.toJson := by
      intro x
      rw [itemLength]
      omega
    calc ((k.keep (xs.map expand)).map fun x => itemLength s depth x.toJson).sum
      _ < ((xs.map expand).map fun x => itemLength s depth x.toJson).sum :=
        sum_map_lt_of_sublist positive (k.keep_sublist _) hk
      _ = (xs.map fun x => itemLength s depth x.expand.toJson).sum := by
        rw [List.map_map]
        rfl
      _ ≤ (xs.map fun x => itemLength s depth x.toJson).sum := List.sum_le_sum items

theorem sum_fieldLength_lt {fs : List (String × Document)}
    (ih : ∀ f ∈ fs, ¬ f.2.Keeps → f.2.Shrinks s) (h : ¬ (object fs).Keeps) (depth : Nat) :
    (fs.map fun f => fieldLength s depth (f.1, f.2.expand.toJson)).sum <
      (fs.map fun f => fieldLength s depth (f.1, f.2.toJson)).sum := by
  rw [keeps_object_iff] at h
  push Not at h
  obtain ⟨f, hf, hloss⟩ := h
  refine List.sum_lt_sum _ _ ?_ ⟨f, hf, ?_⟩
  · intro g hg
    exact Nat.add_le_add_left (itemLength_expand_le (ih g hg) depth) _
  · refine Nat.add_lt_add_left ?_ _
    exact Nat.add_lt_add_left (ih f hf hloss depth) _

/-- **A document that loses something shrinks**, in any style and at any depth. -/
theorem shrinks_of_not_keeps {d : Document} (h : ¬ d.Keeps) : d.Shrinks s := by
  induction d using induct with
  | sequence k xs ih =>
    intro depth
    have hkept : (k.keep (xs.map expand)).map toJson ≠ [] := by
      rw [Ne, List.map_eq_nil_iff, k.keep_eq_nil_iff, List.map_eq_nil_iff]
      rintro rfl
      exact h (keeps_sequence_iff.mpr ⟨(k.keep_eq_nil_iff []).mpr rfl, nofun⟩)
    rw [expand_sequence, toJson_sequence, toJson_sequence]
    apply Json.length_render_array_lt s depth hkept
    rw [List.map_map, List.map_map]
    exact sum_itemLength_lt ih h (depth + 1)
  | object fs ih =>
    intro depth
    rw [expand_object, toJson_object, toJson_object, List.map_map]
    apply Json.length_render_object_lt s depth
    · rw [Ne, List.map_eq_nil_iff]
      rintro rfl
      exact h keeps_object_nil
    · rw [List.map_map, List.map_map]
      exact sum_fieldLength_lt ih h (depth + 1)
  | _ => exact absurd nofun h

end

/-- only a document that loses nothing has the same data on the wire as its expansion -/
theorem toJson_expand_iff {d : Document} : d.expand.toJson = d.toJson ↔ d.Keeps := by
  refine ⟨?_, toJson_expand⟩
  intro h
  by_contra hloss
  have hlt := shrinks_of_not_keeps (s := .wire) hloss 0
  rw [h] at hlt
  exact Nat.lt_irrefl _ hlt

theorem keeps_iff_length {d : Document} :
    d.Keeps ↔ ∀ xs, d.HasSet xs → (distinct (xs.map expand)).length = xs.length := by
  have kept : ∀ xs : List Document, ((xs.map expand).Pairwise fun x y => x.same y = false) ↔
      (distinct (xs.map expand)).length = xs.length := by
    intro xs
    have hlength : (xs.map expand).length = xs.length := List.length_map expand
    rw [← distinct_eq_self_iff, ← hlength]
    exact ⟨congrArg List.length, (distinct_sublist _).eq_of_length⟩
  rw [Keeps]
  simp only [kept]

/-- **The text of a document and of its expansion are the same if and only if no set loses an item**
because two have become equal, and otherwise the expansion is shorter; so without sets they are the
same. -/
theorem wire_expand (d : Document) :
    (d.expand.wire = d.wire ↔ ∀ xs, d.HasSet xs → distinct (xs.map expand) = xs.map expand) ∧
      (∀ xs, d.HasSet xs → distinct (xs.map expand) ≠ xs.map expand →
        d.expand.wire.length < d.wire.length) ∧
      (∀ xs : List Document, distinct (xs.map expand) = xs.map expand ↔
        (xs.map expand).Pairwise fun x y => x.same y = false) ∧
      ((∀ xs, ¬ d.HasSet xs) → d.expand.wire = d.wire) := by
  have same : d.Keeps → d.expand.wire = d.wire := by
    intro h
    rw [wire, toJson_expand h, wire]
  have shorter : ¬ d.Keeps → d.expand.wire.length < d.wire.length := by
    intro h
    rw [wire, wire, Json.wire, Json.wire, Json.text, Json.text, String.length_ofList,
      String.length_ofList]
    exact shrinks_of_not_keeps h 0
  refine ⟨⟨?_, ?_⟩, ?_, fun xs => distinct_eq_self_iff, ?_⟩
  · intro h xs hxs
    rw [distinct_eq_self_iff]
    by_contra hloss
    have hlt := shorter fun hkeeps => hloss (hkeeps xs hxs)
    rw [h] at hlt
    exact Nat.lt_irrefl _ hlt
  · intro h
    exact same fun xs hxs => distinct_eq_self_iff.mp (h xs hxs)
  · intro xs hxs hloss
    exact shorter fun hkeeps => hloss (distinct_eq_self_iff.mpr (hkeeps xs hxs))
  · intro h
    exact same fun xs hxs => absurd hxs (h xs)

/-- an inner set collapses, and then the outer set does -/
def collapsing : Document :=
  set [set [parameter ⟨"x", .float, none⟩, object [("Get", string "Parameters.x")]],
    set [parameter ⟨"x", .string, none⟩]]

theorem wire_expand_collapsing : collapsing.expand.wire.length < collapsing.wire.length ∧
    (object [("set", set [string "x", parameter ⟨"x", .float, none⟩])]).expand.wire =
      (object [("set", set [string "x", parameter ⟨"x", .float, none⟩])]).wire := by
  refine ⟨?_, ?_⟩
  · refine (wire_expand collapsing).2.1 _ .here ?_
    intro h
    exact absurd (congrArg List.length h) (by decide)
  · refine (wire_expand _).1.mpr ?_
    rintro xs (_ | _ | @⟨_, f, _, hf, h⟩)
    obtain rfl := List.mem_singleton.mp hf
    cases h with
    | here => rfl
    | item hx h =>
      rcases List.mem_cons.mp hx with rfl | hx
      · cases h
      · obtain rfl := List.mem_singleton.mp hx
        cases h

end Document

end Workflow
