import Workflow.Json.Basic

/-!
# Data whose objects are maps

A map has one value for a key. Data that a text, a file or a program gives is put together from
maps, so no object in it has a key twice, at whatever depth it is.

* `Json.Keyed`                 such data;
* `Json.KeyedFields`           the fields of such an object;
* `KeyedFields.ofPairs`        fields set one after another: a key that is given again keeps its place
                               and gets the new value;
* `Keyed.array`, `Keyed.object`   data from its parts;
* `Json.keyed`                 any data put together so; `keyed_coe` says that such data stays.
-/

namespace Workflow.Json

/-- data in which no object has a key twice -/
abbrev Keyed := {v : Json // v.wellKeyed = true}

/-- fields of an object in which no key is there twice, at any depth -/
abbrev KeyedFields := {fs : List (String × Json) // (object fs).wellKeyed = true}

def KeyedFields.ofPairs (pairs : List (String × Keyed)) : KeyedFields where
  val := (Fields.ofPairs pairs).map fun f => (f.1, f.2.val)
  property := by
    rw [wellKeyed_object_iff, Fields.keys_map, List.forall_mem_map]
    exact ⟨Fields.nodup_keys_ofPairs pairs, fun f _ => f.2.property⟩

namespace Keyed

def array (xs : List Keyed) : Keyed where
  val := .array (xs.map Subtype.val)
  property := by
    rw [wellKeyed_array_iff, List.forall_mem_map]
    exact fun x _ => x.property

def object (pairs : List (String × Keyed)) : Keyed :=
  ⟨.object (KeyedFields.ofPairs pairs).val, (KeyedFields.ofPairs pairs).property⟩

end Keyed

mutual

/-- the data that is put together from the parts of a value -/
def keyed : Json → Keyed
  | null => ⟨null, rfl⟩
  | bool b => ⟨bool b, rfl⟩
  | number n => ⟨number n, rfl⟩
  | string s => ⟨string s, rfl⟩
  | array xs => .array (keyedItems xs)
  | object fs => .object (keyedPairs fs)

def keyedItems : List Json → List Keyed
  | [] => []
  | x :: xs => keyed x :: keyedItems xs

def keyedPairs : List (String × Json) → List (String × Keyed)
  | [] => []
  | (k, v) :: rest => (k, keyed v) :: keyedPairs rest

end

def keyedFields (fs : List (String × Json)) : KeyedFields := .ofPairs (keyedPairs fs)

theorem keyedItems_eq (xs : List Json) : keyedItems xs = xs.map keyed := by
  induction xs with
  | nil => rfl
  | cons x xs ih => rw [keyedItems, ih, List.map_cons]

theorem keyedPairs_eq (fs : List (String × Json)) :
    keyedPairs fs = fs.map fun f => (f.1, keyed f.2) := by
  induction fs with
  | nil => rfl
  | cons f fs ih => rw [keyedPairs, ih, List.map_cons]

/-- fields without a repeated key, put together again -/
theorem val_keyedFields {fs : List (String × Json)} (hkeys : (Fields.keys fs).Nodup)
    (h : ∀ f ∈ fs, (keyed f.2).val = f.2) : (keyedFields fs).val = fs := by
  have distinct : (Fields.keys (fs.map fun f => (f.1, keyed f.2))).Nodup := by
    rw [Fields.keys_map]
    exact hkeys
  show (Fields.ofPairs (keyedPairs fs)).map (fun f => (f.1, f.2.val)) = fs
  rw [keyedPairs_eq, Fields.ofPairs_of_nodup distinct, List.map_map]
  have same : ∀ f ∈ fs, (f.1, (keyed f.2).val) = f := by
    intro f hf
    rw [h f hf]
  exact (List.map_congr_left same).trans (List.map_id' fs)

theorem val_keyed {v : Json} (h : v.wellKeyed = true) : v.keyed.val = v := by
  induction v using induct with
  | array xs ih =>
    rw [wellKeyed_array_iff] at h
    show array ((keyedItems xs).map Subtype.val) = array xs
    rw [keyedItems_eq, List.map_map]
    exact congrArg array ((List.map_congr_left fun x hx => ih x hx (h x hx)).trans (List.map_id xs))
  | object fs ih =>
    rw [wellKeyed_object_iff] at h
    exact congrArg object (val_keyedFields h.1 fun f hf => ih f hf (h.2 f hf))
  | _ => rfl

/-- **Data without repeated keys is left as it is.** -/
@[simp] theorem keyed_coe (v : Keyed) : keyed v = v := Subtype.ext (val_keyed v.property)

@[simp] theorem keyedFields_coe (fs : KeyedFields) : keyedFields fs = fs := by
  have hfs := wellKeyed_object_iff.mp fs.property
  exact Subtype.ext (val_keyedFields hfs.1 fun f hf => val_keyed (hfs.2 f hf))

end Workflow.Json
