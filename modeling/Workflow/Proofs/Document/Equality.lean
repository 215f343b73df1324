import Workflow.Document.Keyed
import Workflow.Proofs.Document.Distinct
import Workflow.Proofs.Json.Equality

/-!
# Equality of documents

Documents are alike if they are built in the same way: sequences of one kind with items alike in
order, objects with fields alike by key, and deferred nodes of one form with like content. Documents
that are alike have expansions and wire forms that are alike. The step to look at is a set, which
drops items by the very comparison in question: of two lists alike item by item it drops the same
places, because an item equals one seen before exactly if its counterpart equals the counterpart of
that one.

* `Document.Alike`              the documents that count as equal;
* `Document.same_iff_alike`     the comparison says whether documents are alike;
* `SequenceKind.keep_alike`     what sequences of like items keep;
* `Document.Alike.expand`, `Document.Alike.toJson`.
-/

namespace Workflow

/-- parameters with the same name and kind, and with like defaults if with any -/
structure Parameter.Alike (p q : Parameter) : Prop where
  name : p.name = q.name
  kind : p.kind = q.kind
  default? : Option.Rel Json.Alike p.default? q.default?

namespace Parameter

theorem Alike.symm {p q : Parameter} (h : p.Alike q) : q.Alike p :=
  ⟨h.name.symm, h.kind.symm, rel_imp_of_mem (rel_flip h.default?) fun _ _ _ _ hvw => hvw.symm⟩

theorem Alike.trans {p q r : Parameter} (h : p.Alike q) (h' : q.Alike r) : p.Alike r := by
  refine ⟨h.name.trans h'.name, h.kind.trans h'.kind, ?_⟩
  apply rel_imp_of_mem (rel_comp h.default? h'.default?)
  rintro v - u - ⟨w, hvw, hwu⟩
  exact hvw.trans hwu

theorem alike_self_iff {p : Parameter} : p.Alike p ↔ p.wellKeyed = true := by
  obtain ⟨name, kind, default?⟩ := p
  rw [wellKeyed_iff]
  constructor
  · rintro ⟨-, -, h⟩ v hv
    obtain rfl : default? = some v := hv
    exact Json.alike_self_iff.mp (Option.rel_some_some.mp h)
  · intro h
    refine ⟨rfl, rfl, ?_⟩
    cases default? with
    | none => exact .none
    | some v => exact .some (Json.alike_self_iff.mpr (h v rfl))

theorem same_iff_alike {p q : Parameter} (hp : p.wellKeyed = true) (hq : q.wellKeyed = true) :
    p.same q = true ↔ p.Alike q := by
  obtain ⟨name, kind, default?⟩ := p
  obtain ⟨name', kind', default?'⟩ := q
  rw [wellKeyed_iff] at hp hq
  rw [same, Bool.and_eq_true, Bool.and_eq_true, beq_iff_eq, beq_iff_eq]
  constructor
  · rintro ⟨⟨hname, hkind⟩, hdefault⟩
    refine ⟨hname, hkind, ?_⟩
    cases default? with
    | none =>
      cases default?' with
      | none => exact .none
      | some w => cases hdefault
    | some v =>
      cases default?' with
      | none => cases hdefault
      | some w => exact .some ((Json.same_iff_alike (hp v rfl) (hq w rfl)).mp hdefault)
  · rintro ⟨hname, hkind, hdefault⟩
    refine ⟨⟨hname, hkind⟩, ?_⟩
    cases hdefault with
    | none => rfl
    | some hvw => exact (Json.same_iff_alike (hp _ rfl) (hq _ rfl)).mpr hvw

end Parameter

namespace Deferred

/-- deferred nodes of one form with like content -/
inductive Alike : Deferred → Deferred → Prop
  | parameter {p q : Parameter} (h : p.Alike q) : Alike (parameter p) (parameter q)
  | property (p : Property) : Alike (property p) (property p)
  | expression {v w : Json} (h : v.Alike w) : Alike (expression v) (expression w)

theorem alike_parameter_iff {p q : Parameter} :
    Alike (parameter p) (parameter q) ↔ p.Alike q := by
  refine ⟨?_, .parameter⟩
  intro h
  cases h with
  | parameter h => exact h

theorem alike_property_iff {p q : Property} : Alike (property p) (property q) ↔ p = q := by
  constructor
  · rintro ⟨⟩
    rfl
  · rintro rfl
    exact .property p

theorem alike_expression_iff {v w : Json} : Alike (expression v) (expression w) ↔ v.Alike w := by
  refine ⟨?_, .expression⟩
  intro h
  cases h with
  | expression h => exact h

theorem Alike.symm {d e : Deferred} (h : d.Alike e) : e.Alike d := by
  cases h with
  | parameter h => exact .parameter h.symm
  | property p => exact .property p
  | expression h => exact .expression h.symm

theorem Alike.trans {d e f : Deferred} (h : d.Alike e) (h' : e.Alike f) : d.Alike f := by
  cases h with
  | parameter h => cases h' with | parameter h' => exact .parameter (h.trans h')
  | property p => exact h'
  | expression h => cases h' with | expression h' => exact .expression (h.trans h')

theorem alike_self_iff {d : Deferred} : d.Alike d ↔ d.wellKeyed = true := by
  cases d with
  | parameter p => rw [alike_parameter_iff, Parameter.alike_self_iff, wellKeyed]
  | property p => exact ⟨fun _ => rfl, fun _ => .property p⟩
  | expression v => rw [alike_expression_iff, Json.alike_self_iff, wellKeyed]

theorem same_iff_alike {d e : Deferred} (hd : d.wellKeyed = true) (he : e.wellKeyed = true) :
    d.same e = true ↔ d.Alike e := by
  cases d with
  | parameter p =>
    cases e with
    | parameter q => rw [same, Parameter.same_iff_alike hd he, alike_parameter_iff]
    | _ => exact ⟨nofun, nofun⟩
  | property p =>
    cases e with
    | property q => rw [same, beq_iff_eq, alike_property_iff]
    | _ => exact ⟨nofun, nofun⟩
  | expression v =>
    cases e with
    | expression w => rw [same, Json.same_iff_alike hd he, alike_expression_iff]
    | _ => exact ⟨nofun, nofun⟩

/-- a parameter and a property count by their path alone -/
theorem Alike.toJson {d e : Deferred} (h : d.Alike e) : d.toJson.Alike e.toJson := by
  cases h with
  | @parameter p q h =>
    show (getExpression ("Parameters." ++ p.name)).Alike (getExpression ("Parameters." ++ q.name))
    rw [h.name]
    exact Json.alike_self_iff.mpr rfl
  | property p => exact Json.alike_self_iff.mpr rfl
  | expression h => exact h

end Deferred

namespace Document

/-- what counts as equal: the order of fields and the sign of zero are not seen -/
inductive Alike : Document → Document → Prop
  | null : Alike null null
  | bool (b : Bool) : Alike (bool b) (bool b)
  | number {m n : Number} (h : m.Alike n) : Alike (number m) (number n)
  | string (s : String) : Alike (string s) (string s)
  | sequence (kind : SequenceKind) {xs ys : List Document} (h : List.Forall₂ Alike xs ys) :
      Alike (sequence kind xs) (sequence kind ys)
  | object {fs gs : List (String × Document)} (hfs : (Fields.keys fs).Nodup)
      (hgs : (Fields.keys gs).Nodup)
      (h : ∀ key, Option.Rel Alike (Fields.get? key fs) (Fields.get? key gs)) :
      Alike (object fs) (object gs)
  | deferred {d e : Deferred} (h : d.Alike e) : Alike (deferred d) (deferred e)

theorem alike_bool_iff {b c : Bool} : Alike (bool b) (bool c) ↔ b = c := by
  constructor
  · rintro ⟨⟩
    rfl
  · rintro rfl
    exact .bool b

theorem alike_number_iff {m n : Number} : Alike (number m) (number n) ↔ m.Alike n := by
  refine ⟨?_, .number⟩
  intro h
  cases h with
  | number h => exact h

theorem alike_string_iff {s t : String} : Alike (string s) (string t) ↔ s = t := by
  constructor
  · rintro ⟨⟩
    rfl
  · rintro rfl
    exact .string s

theorem alike_sequence_iff {k l : SequenceKind} {xs ys : List Document} :
    Alike (sequence k xs) (sequence l ys) ↔ k = l ∧ List.Forall₂ Alike xs ys := by
  constructor
  · intro h
    cases h with
    | sequence _ h => exact ⟨rfl, h⟩
  · rintro ⟨rfl, h⟩
    exact .sequence k h

theorem alike_object_iff {fs gs : List (String × Document)} : Alike (object fs) (object gs) ↔
    (Fields.keys fs).Nodup ∧ (Fields.keys gs).Nodup ∧ Fields.Agree Alike fs gs := by
  constructor
  · intro h
    cases h with
    | object hfs hgs h => exact ⟨hfs, hgs, h⟩
  · rintro ⟨hfs, hgs, h⟩
    exact .object hfs hgs h

/-- fields in one order with the same distinct keys -/
theorem alike_object_of_forall₂ {fs gs : List (String × Document)} (hkeys : (Fields.keys fs).Nodup)
    (h : List.Forall₂ (fun f g => f.1 = g.1 ∧ Alike f.2 g.2) fs gs) :
    Alike (object fs) (object gs) := by
  have hsame : Fields.keys fs = Fields.keys gs := by
    rw [← List.forall₂_eq_eq_eq]
    exact forall₂_map_of_mem h fun _ _ _ _ hfg => hfg.1
  exact .object hkeys (hsame ▸ hkeys) (Fields.Agree.of_forall₂ h)

theorem alike_deferred_iff {d e : Deferred} : Alike (deferred d) (deferred e) ↔ d.Alike e := by
  refine ⟨?_, .deferred⟩
  intro h
  cases h with
  | deferred h => exact h

theorem sameItems_iff {xs ys : List Document} :
    sameItems xs ys = true ↔ List.Forall₂ (fun x y => x.same y = true) xs ys :=
  forall₂_iff_of_cons rfl (fun _ _ => rfl) (fun _ _ => rfl) (fun _ _ _ _ => rfl)

theorem sameFields_eq (fs gs : List (String × Document)) :
    sameFields fs gs = fs.all fun f => (Fields.get? f.1 gs).any (same f.2) := by
  induction fs with
  | nil => rfl
  | cons f fs ih =>
    rw [sameFields, ih, List.all_cons]
    cases Fields.get? f.1 gs <;> rfl

namespace Alike

theorem symm {a b : Document} (h : Alike a b) : Alike b a := by
  induction a using induct generalizing b with
  | null => cases h with | null => exact .null
  | bool v => cases h with | bool => exact .bool v
  | number n => cases h with | number h => exact .number h.symm
  | string s => cases h with | string => exact .string s
  | sequence k xs ih =>
    cases h with
    | sequence _ h =>
      exact .sequence k (forall₂_imp_of_mem h fun x hx y _ hxy => ih x hx hxy).flip
  | object fs ih =>
    cases h with
    | object hfs hgs h =>
      have hagree : Fields.Agree (flip Alike) fs _ :=
        Fields.Agree.imp h fun f hf g _ hfg => ih f hf hfg
      exact .object hgs hfs hagree.flip
  | deferred d => cases h with | deferred h => exact .deferred h.symm

theorem trans {a b c : Document} (h : Alike a b) (h' : Alike b c) : Alike a c := by
  induction a using induct generalizing b c with
  | null => cases h with | null => exact h'
  | bool v => cases h with | bool => exact h'
  | number n =>
    cases h with
    | number h => cases h' with | number h' => exact .number (h.trans h')
  | string s => cases h with | string => exact h'
  | sequence k xs ih =>
    cases h with
    | sequence _ h =>
      cases h' with
      | sequence _ h' =>
        apply Alike.sequence k
        apply forall₂_imp_of_mem (forall₂_comp h h')
        rintro x hx z - ⟨y, hxy, hyz⟩
        exact ih x hx hxy hyz
  | object fs ih =>
    cases h with
    | object hfs hgs h =>
      cases h' with
      | object _ hhs h' =>
        apply Alike.object hfs hhs
        apply Fields.Agree.imp (Fields.Agree.comp h h')
        rintro f hf k - ⟨y, hxy, hyz⟩
        exact ih f hf hxy hyz
  | deferred d =>
    cases h with
    | deferred h => cases h' with | deferred h' => exact .deferred (h.trans h')

end Alike

theorem alike_self_iff {a : Document} : Alike a a ↔ a.keyedThroughout = true := by
  induction a using induct with
  | null => exact ⟨fun _ => rfl, fun _ => .null⟩
  | bool v => exact ⟨fun _ => rfl, fun _ => .bool v⟩
  | number n => exact ⟨fun _ => rfl, fun _ => .number (.self n)⟩
  | string s => exact ⟨fun _ => rfl, fun _ => .string s⟩
  | sequence k xs ih =>
    rw [alike_sequence_iff, List.forall₂_same, keyedThroughout_sequence_iff]
    exact ⟨fun h x hx => (ih x hx).mp (h.2 x hx), fun h => ⟨rfl, fun x hx => (ih x hx).mpr (h x hx)⟩⟩
  | object fs ih =>
    rw [alike_object_iff, keyedThroughout_object_iff]
    constructor
    · rintro ⟨hkeys, -, h⟩
      exact ⟨hkeys, fun f hf => (ih f hf).mp (h.of_mem hkeys hf)⟩
    · rintro ⟨hkeys, h⟩
      exact ⟨hkeys, hkeys, Fields.Agree.self fun f hf => (ih f hf).mpr (h f hf)⟩
  | deferred d => rw [alike_deferred_iff, Deferred.alike_self_iff, keyedThroughout]

theorem Alike.keyedThroughout {a b : Document} (h : Alike a b) : a.keyedThroughout = true :=
  alike_self_iff.mp (h.trans h.symm)

theorem same_iff_alike {a b : Document} (ha : a.keyedThroughout = true)
    (hb : b.keyedThroughout = true) : a.same b = true ↔ Alike a b := by
  induction a using induct generalizing b with
  | null =>
    cases b with
    | null => exact ⟨fun _ => .null, fun _ => rfl⟩
    | _ => exact ⟨nofun, nofun⟩
  | bool v =>
    cases b with
    | bool w => rw [same, beq_iff_eq, alike_bool_iff]
    | _ => exact ⟨nofun, nofun⟩
  | number m =>
    cases b with
    | number n => rw [same, Number.same_iff_alike, alike_number_iff]
    | _ => exact ⟨nofun, nofun⟩
  | string s =>
    cases b with
    | string t => rw [same, beq_iff_eq, alike_string_iff]
    | _ => exact ⟨nofun, nofun⟩
  | sequence k xs ih =>
    cases b with
    | sequence l ys =>
      rw [keyedThroughout_sequence_iff] at ha hb
      rw [same, Bool.and_eq_true, beq_iff_eq, sameItems_iff, alike_sequence_iff]
      have item : ∀ x ∈ xs, ∀ y ∈ ys, (x.same y = true ↔ Alike x y) := fun x hx y hy =>
        ih x hx (ha x hx) (hb y hy)
      constructor
      · rintro ⟨hkind, h⟩
        exact ⟨hkind, forall₂_imp_of_mem h fun x hx y hy => (item x hx y hy).mp⟩
      · rintro ⟨hkind, h⟩
        exact ⟨hkind, forall₂_imp_of_mem h fun x hx y hy => (item x hx y hy).mpr⟩
    | _ => exact ⟨nofun, nofun⟩
  | object fs ih =>
    cases b with
    | object gs =>
      rw [keyedThroughout_object_iff] at ha hb
      rw [same, sameFields_eq, Fields.agree_iff ha.1 hb.1, alike_object_iff]
      have field : ∀ f ∈ fs, ∀ g ∈ gs, (f.2.same g.2 = true ↔ Alike f.2 g.2) := fun f hf g hg =>
        ih f hf (ha.2 f hf) (hb.2 g hg)
      constructor
      · intro h
        exact ⟨ha.1, hb.1, h.imp fun f hf g hg => (field f hf g hg).mp⟩
      · rintro ⟨-, -, h⟩
        exact h.imp fun f hf g hg => (field f hf g hg).mpr
    | _ => exact ⟨nofun, nofun⟩
  | deferred d =>
    cases b with
    | deferred e => rw [same, Deferred.same_iff_alike ha hb, alike_deferred_iff]
    | _ => exact ⟨nofun, nofun⟩

/-- like documents are interchangeable in a comparison -/
theorem same_congr {a b x y : Document} (hab : Alike a b) (hxy : Alike x y) :
    a.same x = b.same y := by
  rw [Bool.eq_iff_iff, same_iff_alike hab.keyedThroughout hxy.keyedThroughout,
    same_iff_alike hab.symm.keyedThroughout hxy.symm.keyedThroughout]
  constructor
  · intro h
    exact hab.symm.trans (h.trans hxy)
  · intro h
    exact hab.trans (h.trans hxy.symm)

/-- an item has been seen exactly if its counterpart has -/
theorem any_same_congr {seen seen' : List Document} {x y : Document}
    (hseen : List.Forall₂ Alike seen seen') (hxy : Alike x y) :
    (seen.any fun z => z.same x) = seen'.any fun z => z.same y := by
  induction hseen with
  | nil => rfl
  | cons hz _ ih => rw [List.any_cons, List.any_cons, same_congr hz hxy, ih]

/-- the same places are dropped -/
theorem distinctAfter_alike {seen seen' xs ys : List Document}
    (hseen : List.Forall₂ Alike seen seen') (h : List.Forall₂ Alike xs ys) :
    List.Forall₂ Alike (distinctAfter seen xs) (distinctAfter seen' ys) := by
  -- both lists are gone through in step, and what has been seen of them stays alike item by item
  induction h generalizing seen seen' with
  | nil => exact .nil
  | @cons x y xs ys hxy _ ih =>
    rw [distinctAfter, distinctAfter, any_same_congr hseen hxy]
    split
    · exact ih hseen
    · exact .cons hxy (ih (.cons hxy hseen))

end Document

theorem SequenceKind.keep_alike (k : SequenceKind) {xs ys : List Document}
    (h : List.Forall₂ Document.Alike xs ys) :
    List.Forall₂ Document.Alike (k.keep xs) (k.keep ys) := by
  cases k with
  | set => exact Document.distinctAfter_alike .nil h
  | _ => exact h

namespace Document

theorem Alike.ofJson {v w : Json} (h : v.Alike w) : Alike (ofJson v) (ofJson w) := by
  induction v using Json.induct generalizing w with
  | null => cases h with | null => exact .null
  | bool v => cases h with | bool => exact .bool v
  | number n => cases h with | number h => exact .number h
  | string s => cases h with | string => exact .string s
  | array xs ih =>
    cases h with
    | array h =>
      rw [Document.ofJson, Document.ofJson, ofJsonItems_eq, ofJsonItems_eq]
      apply Alike.sequence
      exact forall₂_map_of_mem h fun x hx y _ hxy => ih x hx hxy
  | object fs ih =>
    cases h with
    | object hfs hgs h =>
      rw [Document.ofJson, Document.ofJson, ofJsonFields_eq, ofJsonFields_eq]
      have hagree := Fields.Agree.map h fun f hf g _ hfg => ih f hf hfg
      exact .object (by rwa [Fields.keys_map]) (by rwa [Fields.keys_map]) hagree

theorem Alike.toJson {a b : Document} (h : Alike a b) : a.toJson.Alike b.toJson := by
  induction a using induct generalizing b with
  | null => cases h with | null => exact .null
  | bool v => cases h with | bool => exact .bool v
  | number n => cases h with | number h => exact .number h
  | string s => cases h with | string => exact .string s
  | sequence k xs ih =>
    cases h with
    | sequence _ h =>
      rw [toJson_sequence, toJson_sequence]
      apply Json.Alike.array
      exact forall₂_map_of_mem h fun x hx y _ hxy => ih x hx hxy
  | object fs ih =>
    cases h with
    | object hfs hgs h =>
      rw [toJson_object, toJson_object]
      have hagree := Fields.Agree.map h fun f hf g _ hfg => ih f hf hfg
      exact .object (by rwa [Fields.keys_map]) (by rwa [Fields.keys_map]) hagree
  | deferred d => cases h with | deferred h => exact h.toJson

theorem Alike.expand {a b : Document} (h : Alike a b) : Alike a.expand b.expand := by
  induction a using induct generalizing b with
  | null => cases h with | null => exact .null
  | bool v => cases h with | bool => exact .bool v
  | number n => cases h with | number h => exact .number h
  | string s => cases h with | string => exact .string s
  | sequence k xs ih =>
    cases h with
    | sequence _ h =>
      rw [expand_sequence, expand_sequence]
      apply Alike.sequence
      apply k.keep_alike
      exact forall₂_map_of_mem h fun x hx y _ hxy => ih x hx hxy
  | object fs ih =>
    cases h with
    | object hfs hgs h =>
      rw [expand_object, expand_object]
      have hagree := Fields.Agree.map h fun f hf g _ hfg => ih f hf hfg
      exact .object (by rwa [Fields.keys_map]) (by rwa [Fields.keys_map]) hagree
  | deferred d => cases h with | deferred h => exact .ofJson h.toJson

/-! ## equality where no key is twice -/

section
variable {x y z : Document} (hx : x.keyedThroughout = true) (hy : y.keyedThroughout = true)
  (hz : z.keyedThroughout = true)
include hx

theorem same_self : x.same x = true :=
  (same_iff_alike hx hx).mpr (alike_self_iff.mpr hx)

theorem keyedThroughout_expand : x.expand.keyedThroughout = true :=
  (alike_self_iff.mpr hx).expand.keyedThroughout

include hy

theorem same_symm (h : x.same y = true) : y.same x = true :=
  (same_iff_alike hy hx).mpr ((same_iff_alike hx hy).mp h).symm

theorem same_expand (h : x.same y = true) : x.expand.same y.expand = true :=
  (same_iff_alike (keyedThroughout_expand hx) (keyedThroughout_expand hy)).mpr
    ((same_iff_alike hx hy).mp h).expand

include hz

theorem same_trans (hxy : x.same y = true) (hyz : y.same z = true) : x.same z = true :=
  (same_iff_alike hx hz).mpr
    (((same_iff_alike hx hy).mp hxy).trans ((same_iff_alike hy hz).mp hyz))

end

end Document

end Workflow
