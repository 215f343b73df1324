import Mathlib.Data.List.Forall2
import Mathlib.Data.List.Perm.Subperm
import Workflow.Json.Basic

/-!
# Equality of values

Two values are alike if they are built in the same way: items in order, fields by key, an integer
from the same integer and a float from the same float, where the two zeros count as one. On values
whose objects have no key twice this is what the comparison computes, and it is an equivalence.

* `Fields.Agree`            the same keys, with related values;
* `Json.Alike`              the values that count as equal;
* `Json.alike_self_iff`     a value is like itself exactly if no key is twice in it;
* `Json.same_iff_alike`     the comparison says whether values are alike.
-/

namespace Workflow

/-! ## lists and options of related values -/

section Containers

variable {α β γ : Type}

/-- only members are looked at, so the hypothesis of an induction over them is enough -/
theorem forall₂_imp_of_mem {R S : α → β → Prop} {xs : List α} {ys : List β}
    (h : List.Forall₂ R xs ys) (himp : ∀ x ∈ xs, ∀ y ∈ ys, R x y → S x y) :
    List.Forall₂ S xs ys := by
  rw [List.forall₂_iff_zip] at h ⊢
  refine ⟨h.1, ?_⟩
  intro x y hxy
  have hmem := List.of_mem_zip hxy
  exact himp x hmem.1 y hmem.2 (h.2 hxy)

theorem forall₂_map_of_mem {α' β' : Type} {R : α → β → Prop} {S : α' → β' → Prop} {f : α → α'}
    {g : β → β'} {xs : List α} {ys : List β} (h : List.Forall₂ R xs ys)
    (hmap : ∀ x ∈ xs, ∀ y ∈ ys, R x y → S (f x) (g y)) :
    List.Forall₂ S (xs.map f) (ys.map g) := by
  rw [List.forall₂_map_left_iff, List.forall₂_map_right_iff]
  exact forall₂_imp_of_mem h hmap

theorem forall₂_comp {R : α → β → Prop} {S : β → γ → Prop} {xs : List α} {ys : List β}
    {zs : List γ} (hxy : List.Forall₂ R xs ys) (hyz : List.Forall₂ S ys zs) :
    List.Forall₂ (Relation.Comp R S) xs zs := by
  induction hxy generalizing zs with
  | nil =>
    cases hyz
    exact .nil
  | cons hx _ ih =>
    cases hyz with
    | cons hy hrest => exact .cons ⟨_, hx, hy⟩ (ih hrest)

/-- a comparison that goes through two lists item by item -/
theorem forall₂_iff_of_cons {r : α → β → Bool} {same : List α → List β → Bool}
    (hnil : same [] [] = true) (hshort : ∀ y ys, same [] (y :: ys) = false)
    (hlong : ∀ x xs, same (x :: xs) [] = false)
    (hcons : ∀ x xs y ys, same (x :: xs) (y :: ys) = (r x y && same xs ys)) {xs : List α}
    {ys : List β} : same xs ys = true ↔ List.Forall₂ (fun x y => r x y = true) xs ys := by
  induction xs generalizing ys with
  | nil =>
    cases ys with
    | nil => exact ⟨fun _ => .nil, fun _ => hnil⟩
    | cons y ys =>
      rw [hshort]
      exact ⟨nofun, nofun⟩
  | cons x xs ih =>
    cases ys with
    | nil =>
      rw [hlong]
      exact ⟨nofun, nofun⟩
    | cons y ys => rw [hcons, Bool.and_eq_true, ih, List.forall₂_cons]

theorem rel_imp_of_mem {R S : α → β → Prop} {a : Option α} {b : Option β} (h : Option.Rel R a b)
    (himp : ∀ v ∈ a, ∀ w ∈ b, R v w → S v w) : Option.Rel S a b := by
  cases h with
  | some hvw => exact .some (himp _ rfl _ rfl hvw)
  | none => exact .none

theorem rel_flip {R : α → β → Prop} {a : Option α} {b : Option β} (h : Option.Rel R a b) :
    Option.Rel (flip R) b a := by
  cases h with
  | some hvw => exact .some hvw
  | none => exact .none

theorem rel_comp {R : α → β → Prop} {S : β → γ → Prop} {a : Option α} {b : Option β}
    {c : Option γ} (hab : Option.Rel R a b) (hbc : Option.Rel S b c) :
    Option.Rel (Relation.Comp R S) a c := by
  cases hab with
  | none =>
    cases hbc
    exact .none
  | some hvw =>
    cases hbc with
    | some hwu => exact .some ⟨_, hvw, hwu⟩

theorem rel_map {α' β' : Type} {R : α' → β' → Prop} {f : α → α'} {g : β → β'} {a : Option α}
    {b : Option β} (h : Option.Rel (fun v w => R (f v) (g w)) a b) :
    Option.Rel R (a.map f) (b.map g) := by
  cases h with
  | some hvw => exact .some hvw
  | none => exact .none

theorem exists_mem_of_rel {R : α → β → Prop} {a : Option α} {b : Option β} (h : Option.Rel R a b)
    {v : α} (hv : v ∈ a) : ∃ w ∈ b, R v w := by
  cases h with
  | some hvw => exact ⟨_, rfl, Option.some_inj.mp hv ▸ hvw⟩
  | none => cases hv

theorem exists_mem_of_forall₂ {R : α → β → Prop} {xs : List α} {ys : List β}
    (h : List.Forall₂ R xs ys) {x : α} (hx : x ∈ xs) : ∃ y ∈ ys, R x y := by
  induction h with
  | nil => cases hx
  | @cons x' y xs ys hxy _ ih =>
    rcases List.mem_cons.mp hx with rfl | hx
    · exact ⟨y, List.mem_cons_self, hxy⟩
    · obtain ⟨z, hz, hxz⟩ := ih hx
      exact ⟨z, List.mem_cons_of_mem y hz, hxz⟩

theorem isSome_eq_of_rel {R : α → β → Prop} {a : Option α} {b : Option β} (h : Option.Rel R a b) :
    a.isSome = b.isSome := by
  cases h with
  | some _ => rfl
  | none => rfl

end Containers

/-! ## fields -/

namespace Fields

variable {α β γ : Type}

/-- the same keys, in whatever order, with related values -/
def Agree (R : α → β → Prop) (fs : List (String × α)) (gs : List (String × β)) : Prop :=
  ∀ key, Option.Rel R (get? key fs) (get? key gs)

namespace Agree

variable {R S : α → β → Prop} {fs : List (String × α)} {gs : List (String × β)}

theorem imp (h : Agree R fs gs) (himp : ∀ f ∈ fs, ∀ g ∈ gs, R f.2 g.2 → S f.2 g.2) :
    Agree S fs gs := by
  intro key
  apply rel_imp_of_mem (h key)
  intro v hv w hw
  exact himp (key, v) (mem_of_get? hv) (key, w) (mem_of_get? hw)

theorem flip (h : Agree R fs gs) : Agree (flip R) gs fs :=
  fun key => rel_flip (h key)

theorem comp {T : β → γ → Prop} {hs : List (String × γ)} (h : Agree R fs gs)
    (h' : Agree T gs hs) : Agree (Relation.Comp R T) fs hs :=
  fun key => rel_comp (h key) (h' key)

theorem map {α' β' : Type} {T : α' → β' → Prop} {f : α → α'} {g : β → β'} (h : Agree R fs gs)
    (hmap : ∀ p ∈ fs, ∀ q ∈ gs, R p.2 q.2 → T (f p.2) (g q.2)) :
    Agree T (fs.map fun p => (p.1, f p.2)) (gs.map fun q => (q.1, g q.2)) := by
  have himage : Agree (fun v w => T (f v) (g w)) fs gs := h.imp hmap
  intro key
  rw [get?_map, get?_map]
  exact rel_map (himage key)

theorem self {R : α → α → Prop} {fs : List (String × α)} (h : ∀ f ∈ fs, R f.2 f.2) :
    Agree R fs fs := by
  intro key
  cases hf : get? key fs with
  | none => exact .none
  | some v => exact .some (h (key, v) (mem_of_get? hf))

theorem of_forall₂ (h : List.Forall₂ (fun f g => f.1 = g.1 ∧ R f.2 g.2) fs gs) :
    Agree R fs gs := by
  intro key
  induction h with
  | nil => exact .none
  | @cons f g rest rest' hfg _ ih =>
    rw [get?, get?, ← hfg.1]
    by_cases hk : f.1 = key
    · rw [if_pos hk, if_pos hk]
      exact .some hfg.2
    · rw [if_neg hk, if_neg hk]
      exact ih

theorem of_mem {R : α → α → Prop} {fs : List (String × α)} (h : Agree R fs fs)
    (hkeys : (keys fs).Nodup) {f : String × α} (hf : f ∈ fs) : R f.2 f.2 := by
  have hkey := h f.1
  rwa [get?_of_mem hkeys hf, Option.rel_some_some] at hkey

end Agree

/-- comparing the sizes and looking up every field of one in the other finds out about both -/
theorem agree_iff {r : α → β → Bool} {fs : List (String × α)} {gs : List (String × β)}
    (hfs : (keys fs).Nodup) (hgs : (keys gs).Nodup) :
    (fs.length == gs.length && fs.all fun f => (get? f.1 gs).any (r f.2)) = true ↔
      Agree (fun v w => r v w = true) fs gs := by
  rw [Bool.and_eq_true, beq_iff_eq, List.all_eq_true]
  have hlen : (keys fs).length = fs.length ∧ (keys gs).length = gs.length :=
    ⟨List.length_map _, List.length_map _⟩
  constructor
  · rintro ⟨hsize, hfound⟩ key
    have hsubset : keys fs ⊆ keys gs := by
      intro k hk
      obtain ⟨f, hf, rfl⟩ := List.mem_map.mp hk
      obtain ⟨w, hw, -⟩ := (Option.any_eq_true _ _).mp (hfound f hf)
      rw [mem_keys_iff_get?, hw]
      rfl
    -- as many keys as the other has, all among those of the other: no key of the other is left
    have hperm : (keys fs).Perm (keys gs) :=
      (hfs.subperm hsubset).perm_of_length_le (by omega)
    cases hf : get? key fs with
    | none =>
      have hnone : get? key gs = none := by
        rw [get?_eq_none_iff, ← hperm.mem_iff, ← get?_eq_none_iff]
        exact hf
      rw [hnone]
      exact .none
    | some v =>
      obtain ⟨w, hw, hvw⟩ := (Option.any_eq_true _ _).mp (hfound (key, v) (mem_of_get? hf))
      rw [hw]
      exact .some hvw
  · intro h
    constructor
    · have hmem : ∀ key, key ∈ keys fs ↔ key ∈ keys gs := by
        intro key
        rw [mem_keys_iff_get?, mem_keys_iff_get?, isSome_eq_of_rel (h key)]
      have hperm := (List.perm_ext_iff_of_nodup hfs hgs).mpr hmem
      have hsize := hperm.length_eq
      omega
    · rintro ⟨key, v⟩ hf
      have hkey := h key
      rw [get?_of_mem hfs hf] at hkey
      cases hg : get? key gs with
      | none =>
        rw [hg] at hkey
        cases hkey
      | some w =>
        rw [hg, Option.rel_some_some] at hkey
        exact hkey

end Fields

/-! ## numbers and values -/

namespace Number

/-- a number is like itself, and the two zeros among the floats are alike -/
inductive Alike : Number → Number → Prop
  | self (n : Number) : Alike n n
  | zeros (s t : Bool) : Alike (float (.zero s)) (float (.zero t))

end Number

theorem Decimal.Double.isZero_iff {d : Decimal.Double} : d.isZero = true ↔ ∃ s, d = zero s := by
  rw [isZero, beq_iff_eq]
  constructor
  · intro h
    obtain ⟨negative, rank, hrank⟩ := d
    obtain rfl : rank = 0 := h
    exact ⟨negative, rfl⟩
  · rintro ⟨s, rfl⟩
    rfl

namespace Number

theorem same_iff_alike {m n : Number} : m.same n = true ↔ Alike m n := by
  constructor
  · intro h
    cases m with
    | integer v hv =>
      cases n with
      | integer w hw =>
        obtain rfl : v = w := beq_iff_eq.mp h
        exact .self _
      | float w => cases h
    | float v =>
      cases n with
      | integer w hw => cases h
      | float w =>
        have h : (v == w || (v.isZero && w.isZero)) = true := h
        rw [Bool.or_eq_true, beq_iff_eq, Bool.and_eq_true, Decimal.Double.isZero_iff,
          Decimal.Double.isZero_iff] at h
        rcases h with rfl | ⟨⟨s, rfl⟩, t, rfl⟩
        · exact .self _
        · exact .zeros s t
  · intro h
    cases h with
    | self =>
      cases m with
      | integer v hv => exact beq_self_eq_true v
      | float v => exact v.same_self
    | zeros s t => exact Bool.or_true _

theorem Alike.symm {m n : Number} (h : Alike m n) : Alike n m := by
  cases h with
  | self => exact .self _
  | zeros s t => exact .zeros t s

theorem Alike.trans {k m n : Number} (h : Alike k m) (h' : Alike m n) : Alike k n := by
  cases h with
  | self => exact h'
  | zeros s t =>
    cases h' with
    | self => exact .zeros s t
    | zeros _ u => exact .zeros s u

end Number

namespace Json

/-- what counts as equal: the order of fields and the sign of zero are not seen -/
inductive Alike : Json → Json → Prop
  | null : Alike null null
  | bool (b : Bool) : Alike (bool b) (bool b)
  | number {m n : Number} (h : m.Alike n) : Alike (number m) (number n)
  | string (s : String) : Alike (string s) (string s)
  | array {xs ys : List Json} (h : List.Forall₂ Alike xs ys) : Alike (array xs) (array ys)
  | object {fs gs : List (String × Json)} (hfs : (Fields.keys fs).Nodup)
      (hgs : (Fields.keys gs).Nodup)
      (h : ∀ key, Option.Rel Alike (Fields.get? key fs) (Fields.get? key gs)) :
      Alike (object fs) (object gs)

theorem alike_bool_iff {b c : Bool} : Alike (bool b) (bool c) ↔ b = c := by
  constructor
  · rintro ⟨⟩
    rfl
  · rintro rfl
    exact .bool b

theorem alike_number_iff {m n : Number} : Alike (number m) (number n) ↔ m.Alike n := by
  refine ⟨?_, .number⟩
  intro h
  cases h with
  | number h => exact h

theorem alike_string_iff {s t : String} : Alike (string s) (string t) ↔ s = t := by
  constructor
  · rintro ⟨⟩
    rfl
  · rintro rfl
    exact .string s

theorem alike_array_iff {xs ys : List Json} :
    Alike (array xs) (array ys) ↔ List.Forall₂ Alike xs ys := by
  refine ⟨?_, .array⟩
  intro h
  cases h with
  | array h => exact h

theorem alike_object_iff {fs gs : List (String × Json)} : Alike (object fs) (object gs) ↔
    (Fields.keys fs).Nodup ∧ (Fields.keys gs).Nodup ∧ Fields.Agree Alike fs gs := by
  constructor
  · intro h
    cases h with
    | object hfs hgs h => exact ⟨hfs, hgs, h⟩
  · rintro ⟨hfs, hgs, h⟩
    exact .object hfs hgs h

theorem sameItems_iff {xs ys : List Json} :
    sameItems xs ys = true ↔ List.Forall₂ (fun x y => x.same y = true) xs ys :=
  forall₂_iff_of_cons rfl (fun _ _ => rfl) (fun _ _ => rfl) (fun _ _ _ _ => rfl)

theorem sameFields_eq (fs gs : List (String × Json)) :
    sameFields fs gs = fs.all fun f => (Fields.get? f.1 gs).any (same f.2) := by
  induction fs with
  | nil => rfl
  | cons f fs ih =>
    rw [sameFields, ih, List.all_cons]
    cases Fields.get? f.1 gs <;> rfl

namespace Alike

theorem symm {v w : Json} (h : Alike v w) : Alike w v := by
  induction v using induct generalizing w with
  | null => cases h with | null => exact .null
  | bool b => cases h with | bool => exact .bool b
  | number n => cases h with | number h => exact .number h.symm
  | string s => cases h with | string => exact .string s
  | array xs ih =>
    cases h with
    | array h => exact .array (forall₂_imp_of_mem h fun x hx y _ hxy => ih x hx hxy).flip
  | object fs ih =>
    cases h with
    | object hfs hgs h =>
      have hagree : Fields.Agree (flip Alike) fs _ :=
        Fields.Agree.imp h fun f hf g _ hfg => ih f hf hfg
      exact .object hgs hfs hagree.flip

theorem trans {u v w : Json} (h : Alike u v) (h' : Alike v w) : Alike u w := by
  induction u using induct generalizing v w with
  | null => cases h with | null => exact h'
  | bool b => cases h with | bool => exact h'
  | number n =>
    cases h with
    | number h => cases h' with | number h' => exact .number (h.trans h')
  | string s => cases h with | string => exact h'
  | array xs ih =>
    cases h with
    | array h =>
      cases h' with
      | array h' =>
        apply Alike.array
        apply forall₂_imp_of_mem (forall₂_comp h h')
        rintro x hx z - ⟨y, hxy, hyz⟩
        exact ih x hx hxy hyz
  | object fs ih =>
    cases h with
    | object hfs hgs h =>
      cases h' with
      | object _ hhs h' =>
        apply Alike.object hfs hhs
        apply Fields.Agree.imp (Fields.Agree.comp h h')
        rintro f hf k - ⟨y, hxy, hyz⟩
        exact ih f hf hxy hyz

end Alike

theorem alike_self_iff {v : Json} : Alike v v ↔ v.wellKeyed = true := by
  induction v using induct with
  | null => exact ⟨fun _ => rfl, fun _ => .null⟩
  | bool b => exact ⟨fun _ => rfl, fun _ => .bool b⟩
  | number n => exact ⟨fun _ => rfl, fun _ => .number (.self n)⟩
  | string s => exact ⟨fun _ => rfl, fun _ => .string s⟩
  | array xs ih =>
    rw [alike_array_iff, List.forall₂_same, wellKeyed_array_iff]
    exact ⟨fun h x hx => (ih x hx).mp (h x hx), fun h x hx => (ih x hx).mpr (h x hx)⟩
  | object fs ih =>
    rw [alike_object_iff, wellKeyed_object_iff]
    constructor
    · rintro ⟨hkeys, -, h⟩
      exact ⟨hkeys, fun f hf => (ih f hf).mp (h.of_mem hkeys hf)⟩
    · rintro ⟨hkeys, h⟩
      exact ⟨hkeys, hkeys, Fields.Agree.self fun f hf => (ih f hf).mpr (h f hf)⟩

theorem same_iff_alike {v w : Json} (hv : v.wellKeyed = true) (hw : w.wellKeyed = true) :
    v.same w = true ↔ Alike v w := by
  induction v using induct generalizing w with
  | null =>
    cases w with
    | null => exact ⟨fun _ => .null, fun _ => rfl⟩
    | _ => exact ⟨nofun, nofun⟩
  | bool b =>
    cases w with
    | bool c => rw [same, beq_iff_eq, alike_bool_iff]
    | _ => exact ⟨nofun, nofun⟩
  | number m =>
    cases w with
    | number n => rw [same, Number.same_iff_alike, alike_number_iff]
    | _ => exact ⟨nofun, nofun⟩
  | string s =>
    cases w with
    | string t => rw [same, beq_iff_eq, alike_string_iff]
    | _ => exact ⟨nofun, nofun⟩
  | array xs ih =>
    cases w with
    | array ys =>
      rw [wellKeyed_array_iff] at hv hw
      rw [same, sameItems_iff, alike_array_iff]
      have item : ∀ x ∈ xs, ∀ y ∈ ys, (x.same y = true ↔ Alike x y) := fun x hx y hy =>
        ih x hx (hv x hx) (hw y hy)
      constructor
      · exact fun h => forall₂_imp_of_mem h fun x hx y hy => (item x hx y hy).mp
      · exact fun h => forall₂_imp_of_mem h fun x hx y hy => (item x hx y hy).mpr
    | _ => exact ⟨nofun, nofun⟩
  | object fs ih =>
    cases w with
    | object gs =>
      rw [wellKeyed_object_iff] at hv hw
      rw [same, sameFields_eq, Fields.agree_iff hv.1 hw.1, alike_object_iff]
      have field : ∀ f ∈ fs, ∀ g ∈ gs, (f.2.same g.2 = true ↔ Alike f.2 g.2) := fun f hf g hg =>
        ih f hf (hv.2 f hf) (hw.2 g hg)
      constructor
      · intro h
        exact ⟨hv.1, hw.1, h.imp fun f hf g hg => (field f hf g hg).mp⟩
      · rintro ⟨-, -, h⟩
        exact h.imp fun f hf g hg => (field f hf g hg).mpr
    | _ => exact ⟨nofun, nofun⟩

end Json

end Workflow
