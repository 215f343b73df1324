/-!
# Ordered fields

The fields of an object are a list of key and value pairs in the order of insertion. Giving a key a
second time keeps its place and replaces its value.

* `get?`       the value of a key;
* `insert`     sets a key;
* `ofPairs`    sets the keys of a list one after another;
* `keys`       the keys in order; `keys_insert` says what `insert` does to them;
* `get?_of_mem`, `mem_of_get?`  with distinct keys every field is found, and what is found is one.
-/

namespace Workflow.Fields

variable {α β γ : Type}

def keys (fields : List (String × α)) : List String := fields.map Prod.fst

def get? (key : String) : List (String × α) → Option α
  | [] => none
  | (k, v) :: rest => if k = key then some v else get? key rest

/-- replaces the value of a key in place, or adds the key at the end -/
def insert (key : String) (value : α) : List (String × α) → List (String × α)
  | [] => [(key, value)]
  | (k, v) :: rest => if k = key then (key, value) :: rest else (k, v) :: insert key value rest

/-- the fields that result from setting each pair in turn -/
def ofPairs (pairs : List (String × α)) : List (String × α) :=
  pairs.foldl (fun fields p => insert p.1 p.2 fields) []

theorem keys_insert (key : String) (value : α) (fields : List (String × α)) :
    keys (insert key value fields) =
      if key ∈ keys fields then keys fields else keys fields ++ [key] := by
  induction fields with
  | nil => simp [insert, keys]
  | cons p rest ih =>
    obtain ⟨k, v⟩ := p
    simp only [insert]
    by_cases h : k = key
    · simp [h, keys]
    · have hk : key ≠ k := fun e => h e.symm
      simp only [keys] at ih
      rw [if_neg h]
      simp only [keys, List.map_cons, ih, List.mem_cons, hk, false_or]
      by_cases hm : key ∈ rest.map Prod.fst <;> simp only [hm, if_true, if_false, List.cons_append]

theorem mem_keys_iff_get? (key : String) (fields : List (String × α)) :
    key ∈ keys fields ↔ (get? key fields).isSome := by
  induction fields with
  | nil => simp [keys, get?]
  | cons p rest ih =>
    obtain ⟨k, v⟩ := p
    by_cases h : k = key
    · simp [keys, get?, h]
    · simp only [keys] at ih
      simp [keys, get?, h, Ne.symm h, ih]

/-- the keys stay distinct -/
theorem nodup_keys_insert {key : String} {value : α} {fields : List (String × α)}
    (h : (keys fields).Nodup) : (keys (insert key value fields)).Nodup := by
  rw [keys_insert]
  split
  · exact h
  · rename_i hk
    refine List.nodup_append.2 ⟨h, List.nodup_cons.2 ⟨List.not_mem_nil, List.nodup_nil⟩, ?_⟩
    intro a ha b hb e
    rw [List.mem_singleton] at hb
    exact hk (hb ▸ e ▸ ha)

theorem nodup_keys_ofPairs (pairs : List (String × α)) : (keys (ofPairs pairs)).Nodup := by
  have step : ∀ (ps fields : List (String × α)), (keys fields).Nodup →
      (keys (ps.foldl (fun fields p => insert p.1 p.2 fields) fields)).Nodup := by
    intro ps
    induction ps with
    | nil => exact fun _ h => h
    | cons p rest ih => exact fun fields h => ih _ (nodup_keys_insert h)
  exact step pairs [] List.nodup_nil

/-- a list with distinct keys is left as it is -/
theorem ofPairs_of_nodup {pairs : List (String × α)} (h : (keys pairs).Nodup) :
    ofPairs pairs = pairs := by
  have snoc : ∀ (p : String × α) (fields : List (String × α)), p.1 ∉ keys fields →
      insert p.1 p.2 fields = fields ++ [p] := by
    intro p fields hp
    induction fields with
    | nil => rfl
    | cons q rest ih =>
      simp only [keys, List.map_cons, List.mem_cons, not_or] at hp
      simp only [insert, if_neg (fun e : q.1 = p.1 => hp.1 e.symm), List.cons_append]
      rw [ih hp.2]
  have step : ∀ ps fields : List (String × α), (keys (fields ++ ps)).Nodup →
      ps.foldl (fun fields p => insert p.1 p.2 fields) fields = fields ++ ps := by
    intro ps
    induction ps with
    | nil => simp
    | cons p rest ih =>
      intro fields hn
      have hp : p.1 ∉ keys fields := by
        simp only [keys, List.map_append, List.map_cons, List.nodup_append] at hn
        exact fun hm => hn.2.2 p.1 hm p.1 List.mem_cons_self rfl
      rw [List.foldl_cons, snoc p fields hp, ih]
      · simp
      · simpa using hn
  simpa [ofPairs] using step pairs [] h

theorem mem_of_get? {key : String} {value : α} {fields : List (String × α)}
    (h : get? key fields = some value) : (key, value) ∈ fields := by
  induction fields with
  | nil => cases h
  | cons f rest ih =>
    obtain ⟨k, v⟩ := f
    rw [get?] at h
    by_cases hk : k = key
    · rw [if_pos hk, Option.some_inj] at h
      rw [hk, h]
      exact List.mem_cons_self
    · rw [if_neg hk] at h
      exact List.mem_cons_of_mem _ (ih h)

theorem get?_of_mem {key : String} {value : α} {fields : List (String × α)}
    (hkeys : (keys fields).Nodup) (h : (key, value) ∈ fields) : get? key fields = some value := by
  induction fields with
  | nil => cases h
  | cons f rest ih =>
    obtain ⟨k, v⟩ := f
    rw [keys, List.map_cons, List.nodup_cons] at hkeys
    rcases List.mem_cons.mp h with hf | hrest
    · obtain ⟨rfl, rfl⟩ := Prod.mk.inj hf
      exact if_pos rfl
    · have hne : k ≠ key := by
        rintro rfl
        exact hkeys.1 (List.mem_map.mpr ⟨_, hrest, rfl⟩)
      rw [get?, if_neg hne]
      exact ih hkeys.2 hrest

theorem get?_eq_none_iff {key : String} {fields : List (String × α)} :
    get? key fields = none ↔ key ∉ keys fields := by
  rw [mem_keys_iff_get?, Option.not_isSome_iff_eq_none]

theorem get?_map (f : α → β) (key : String) (fields : List (String × α)) :
    get? key (fields.map fun p => (p.1, f p.2)) = (get? key fields).map f := by
  induction fields with
  | nil => rfl
  | cons p rest ih =>
    rw [List.map_cons, get?, get?]
    by_cases hk : p.1 = key
    · rw [if_pos hk, if_pos hk, Option.map_some]
    · rw [if_neg hk, if_neg hk, ih]

theorem keys_map (f : α → β) (fields : List (String × α)) :
    keys (fields.map fun p => (p.1, f p.2)) = keys fields := by
  rw [keys, List.map_map]
  rfl

/-- fields are mapped to the same if their keys are the same and their values are mapped to the
same -/
theorem map_eq_map {f : α → γ} {g : β → γ} {fs : List (String × α)} {gs : List (String × β)}
    (hkeys : keys fs = keys gs) (hvalues : (fs.map Prod.snd).map f = (gs.map Prod.snd).map g) :
    (fs.map fun p => (p.1, f p.2)) = gs.map fun p => (p.1, g p.2) := by
  have left : (fs.map fun p => (p.1, f p.2)) = (keys fs).zip ((fs.map Prod.snd).map f) := by
    rw [keys, List.map_map, List.zip_map']
    rfl
  have right : (gs.map fun p => (p.1, g p.2)) = (keys gs).zip ((gs.map Prod.snd).map g) := by
    rw [keys, List.map_map, List.zip_map']
    rfl
  rw [left, right, hkeys, hvalues]

end Workflow.Fields
