import Workflow.Proofs.Document.Representatives
import Workflow.Proofs.Reference.Path

/-!
# References are kept apart

A set drops an item if an equal one came before it, so a reference could get lost in its expansion
by a second reference with the same expression. Legible referents have expressions of their own, and
so each of them stands in the expansion of a set once. Below the items of a set the same holds: an
item that is dropped equals one that is kept, part for part, so the references in it are in the
other item too.

* `Deferred.RefersTo`                  what a deferred value refers to;
* `Document.same_path_iff`             only the reference itself equals a reference;
* `Document.contains_expand`           what stands in a document stands, expanded, in its expansion;
* `Document.references_kept_apart`     references to different values are never merged.
-/

namespace Workflow

/-! ## deferred values and what they refer to -/

namespace Deferred

/-- A parameter is referred to by its name, whatever its kind and default, a variable of the run by
its expression, and a part of an output by the property that the hops lead to. -/
inductive RefersTo : Deferred → Referent → Prop
  | parameter (p : Parameter) : RefersTo (parameter p) (.parameter p.name)
  | runVariable (v : RunVariable) : RefersTo (expression v.expression) (.runVariable v)
  | output (step : String) (hops : List Hop) :
      RefersTo (property ((Property.ofStep step).follow hops)) (.output step hops)

variable {t u : Deferred} {a b : Referent}

theorem RefersTo.toJson_eq (h : t.RefersTo a) : t.toJson = getExpression a.path := by
  cases h <;> rfl

theorem RefersTo.expand_eq (h : t.RefersTo a) :
    (Document.deferred t).expand = Document.ofJson (getExpression a.path) :=
  congrArg Document.ofJson h.toJson_eq

/-- legible referents are the same if their references have the same expression -/
theorem RefersTo.toJson_eq_iff (ht : t.RefersTo a) (hu : u.RefersTo b) (ha : a.isLegible = true)
    (hb : b.isLegible = true) : t.toJson = u.toJson ↔ a = b := by
  rw [ht.toJson_eq, hu.toJson_eq, getExpression_inj]
  exact ⟨Referent.path_injective ha hb, congrArg Referent.path⟩

end Deferred

namespace Document

/-! ## what a set drops -/

/-- an item that is dropped equals one that is kept or was seen before -/
theorem exists_mem_distinctAfter {x : Document} (hself : x.same x = true) (seen : List Document)
    {xs : List Document} (hx : x ∈ xs) :
    ∃ y, (y ∈ seen ∨ y ∈ distinctAfter seen xs) ∧ y.same x = true := by
  induction xs generalizing seen with
  | nil => cases hx
  | cons z zs ih =>
    rw [distinctAfter]
    by_cases hdropped : (seen.any fun y => y.same z) = true
    · rw [if_pos hdropped]
      rcases List.mem_cons.mp hx with rfl | hx
      · obtain ⟨y, hy, hyx⟩ := List.any_eq_true.mp hdropped
        exact ⟨y, .inl hy, hyx⟩
      · exact ih seen hx
    · rw [if_neg hdropped]
      rcases List.mem_cons.mp hx with rfl | hx
      · exact ⟨x, .inr List.mem_cons_self, hself⟩
      · obtain ⟨y, hy | hy, hyx⟩ := ih (z :: seen) hx
        · rcases List.mem_cons.mp hy with rfl | hy
          · exact ⟨y, .inr List.mem_cons_self, hyx⟩
          · exact ⟨y, .inl hy, hyx⟩
        · exact ⟨y, .inr (List.mem_cons_of_mem z hy), hyx⟩

theorem exists_mem_keep (k : SequenceKind) {x : Document} (hself : x.same x = true)
    {xs : List Document} (hx : x ∈ xs) : ∃ y ∈ k.keep xs, y.same x = true := by
  cases k with
  | set =>
    obtain ⟨y, hy, hyx⟩ := exists_mem_distinctAfter hself [] hx
    exact ⟨y, hy.resolve_left List.not_mem_nil, hyx⟩
  | _ => exact ⟨x, hx, hself⟩

/-! ## a reference in a set -/

/-- only a reference itself equals a reference, which has one key and a text for its value -/
theorem same_path_iff {d : Document} {path : String} :
    d.same (ofJson (getExpression path)) = true ↔ d = ofJson (getExpression path) := by
  constructor
  · intro h
    cases d with
    | object fs =>
      have hfields : (fs.length == 1 && sameFields fs [("Get", string path)]) = true := h
      rw [Bool.and_eq_true, beq_iff_eq, sameFields_eq] at hfields
      obtain ⟨⟨k, v⟩, rfl⟩ := List.length_eq_one_iff.mp hfields.1
      have hfield := List.all_eq_true.mp hfields.2 _ List.mem_cons_self
      obtain ⟨w, hw, hvw⟩ := (Option.any_eq_true _ _).mp hfield
      have hmem : (k, w) = ("Get", string path) := List.mem_singleton.mp (Fields.mem_of_get? hw)
      obtain ⟨rfl, rfl⟩ := Prod.mk.inj hmem
      cases v with
      | string s => exact eq_of_beq hvw ▸ rfl
      | _ => cases hvw
    | _ => cases h
  · rintro rfl
    exact same_self rfl

theorem eq_of_alike_path {d : Document} {path : String}
    (h : Alike (ofJson (getExpression path)) d) : d = ofJson (getExpression path) :=
  same_path_iff.mp ((same_iff_alike h.symm.keyedThroughout h.keyedThroughout).mpr h.symm)

/-- the document stands at that place of the list and at no other -/
def OnlyAt (xs : List Document) (x : Document) (i : Nat) : Prop :=
  ∀ k : Nat, xs[k]? = some x ↔ k = i

/-- where no two items are equal, a document that equals itself has one place at most -/
theorem place_unique {xs : List Document} (hxs : xs.Pairwise fun x y => x.same y = false)
    {x : Document} (hself : x.same x = true) {i j : Nat} (hi : xs[i]? = some x)
    (hj : xs[j]? = some x) : i = j := by
  have notBefore : ∀ {i j : Nat}, xs[i]? = some x → xs[j]? = some x → j ≤ i := by
    intro i j hi hj
    obtain ⟨hi', hxi⟩ := List.getElem?_eq_some_iff.mp hi
    obtain ⟨hj', hxj⟩ := List.getElem?_eq_some_iff.mp hj
    by_contra hlt
    have hne := List.pairwise_iff_getElem.mp hxs i j hi' hj' (Nat.lt_of_not_le hlt)
    rw [hxi, hxj, hself] at hne
    cases hne
  exact Nat.le_antisymm (notBefore hj hi) (notBefore hi hj)

theorem exists_onlyAt_distinct {xs : List Document} {path : String}
    (h : ofJson (getExpression path) ∈ xs) :
    ∃ i, OnlyAt (distinct xs) (ofJson (getExpression path)) i := by
  have hself : (ofJson (getExpression path)).same (ofJson (getExpression path)) = true :=
    same_path_iff.mpr rfl
  obtain ⟨y, hy, hyx⟩ := exists_mem_keep .set hself h
  obtain rfl := same_path_iff.mp hyx
  obtain ⟨i, hi⟩ := List.mem_iff_getElem?.mp hy
  refine ⟨i, fun k => ⟨fun hk => place_unique (pairwise_distinct xs) hself hk hi, ?_⟩⟩
  rintro rfl
  exact hi

/-! ## references at any depth -/

theorem Alike.exists_contains {d e x : Document} (h : Alike d e) (hx : d.Contains x) :
    ∃ y, e.Contains y ∧ Alike x y := by
  induction hx generalizing e with
  | here => exact ⟨e, .here, h⟩
  | item hx _ ih =>
    cases h with
    | sequence _ h =>
      obtain ⟨y, hy, hxy⟩ := exists_mem_of_forall₂ h hx
      obtain ⟨z, hz, hxz⟩ := ih hxy
      exact ⟨z, .item hy hz, hxz⟩
  | field hf _ ih =>
    cases h with
    | object hkeys _ h =>
      obtain ⟨w, hw, hvw⟩ := exists_mem_of_rel (h _) (Fields.get?_of_mem hkeys hf)
      obtain ⟨z, hz, hxz⟩ := ih hvw
      exact ⟨z, .field (Fields.mem_of_get? hw) hz, hxz⟩

/-- What stands in a document stands, expanded, in its expansion. If a set has dropped the item
around it, it stands in the item that was kept instead, up to equality. -/
theorem contains_expand {d e : Document} (hd : d.keyedThroughout = true) (he : d.Contains e) :
    ∃ y, d.expand.Contains y ∧ Alike e.expand y := by
  induction he with
  | here => exact ⟨_, .here, alike_self_iff.mpr (keyedThroughout_expand hd)⟩
  | @item k xs x e hx _ ih =>
    have hxs := keyedThroughout_sequence_iff.mp hd
    have hxe := keyedThroughout_expand (hxs x hx)
    obtain ⟨y, hy, hey⟩ := ih (hxs x hx)
    obtain ⟨z, hz, hzx⟩ := exists_mem_keep k (same_self hxe) (List.mem_map_of_mem hx)
    have hzkeyed : z.keyedThroughout = true := by
      obtain ⟨w, hw, rfl⟩ := List.mem_map.mp ((k.keep_sublist _).subset hz)
      exact keyedThroughout_expand (hxs w hw)
    have hxz : Alike x.expand z := ((same_iff_alike hzkeyed hxe).mp hzx).symm
    obtain ⟨w, hw, hyw⟩ := hxz.exists_contains hy
    rw [expand_sequence]
    exact ⟨w, .item hz hw, hey.trans hyw⟩
  | @field fs f e hf _ ih =>
    obtain ⟨y, hy, hey⟩ := ih ((keyedThroughout_object_iff.mp hd).2 f hf)
    rw [expand_object]
    exact ⟨y, .field (List.mem_map_of_mem hf) hy, hey⟩

/-! ## references to different values -/

section
variable {t u : Deferred} {a b : Referent} (ht : t.RefersTo a)
include ht

theorem exists_onlyAt_of_refersTo {xs : List Document} (h : deferred t ∈ xs) :
    ∃ i, OnlyAt (distinct (xs.map expand)) (deferred t).expand i := by
  have hmem : (deferred t).expand ∈ xs.map expand := List.mem_map_of_mem h
  rw [ht.expand_eq] at hmem ⊢
  exact exists_onlyAt_distinct hmem

theorem contains_expand_of_refersTo {d : Document} (hd : d.keyedThroughout = true)
    (h : d.Contains (deferred t)) : d.expand.Contains (deferred t).expand := by
  obtain ⟨y, hy, hty⟩ := contains_expand hd h
  rw [ht.expand_eq] at hty ⊢
  rwa [eq_of_alike_path hty] at hy

theorem expand_eq_iff_of_refersTo (hu : u.RefersTo b) (ha : a.isLegible = true)
    (hb : b.isLegible = true) : (deferred t).expand = (deferred u).expand ↔ a = b := by
  rw [← ht.toJson_eq_iff hu ha hb]
  constructor
  · intro h
    have hjson : (ofJson t.toJson).toJson = (ofJson u.toJson).toJson := congrArg toJson h
    rwa [toJson_ofJson, toJson_ofJson] at hjson
  · exact congrArg ofJson

end

/-- **References to different values are never merged.** Two legible references have the same
expression exactly if they refer to the same value. In the expansion of a set with both among its
items each of them has one place, the same one exactly if they refer to the same value, and it makes
no difference if equal items have been left out before. At any depth of a document both are found,
expanded, in its expansion, whatever the sets around them drop. -/
theorem references_kept_apart {t u : Deferred} {a b : Referent} (ht : t.RefersTo a)
    (hu : u.RefersTo b) (ha : a.isLegible = true) (hb : b.isLegible = true) :
    (t.toJson = u.toJson ↔ a = b) ∧
      (∀ xs, deferred t ∈ xs → deferred u ∈ xs → ∃ items i j,
        (sequence .set xs).expand = sequence .set items ∧
          OnlyAt items (deferred t).expand i ∧ OnlyAt items (deferred u).expand j ∧
          (i = j ↔ a = b) ∧
          ((∀ x ∈ xs, x.keyedThroughout = true) → (set xs).expand = sequence .set items)) ∧
      ∀ d : Document.Keyed, d.val.Contains (deferred t) → d.val.Contains (deferred u) →
        ∃ x y, d.val.expand.Contains x ∧ d.val.expand.Contains y ∧
          x.toJson = t.toJson ∧ y.toJson = u.toJson ∧ (x = y ↔ a = b) := by
  have expanded := expand_eq_iff_of_refersTo ht hu ha hb
  refine ⟨ht.toJson_eq_iff hu ha hb, ?_, ?_⟩
  · intro xs htxs huxs
    obtain ⟨i, hi⟩ := exists_onlyAt_of_refersTo ht htxs
    obtain ⟨j, hj⟩ := exists_onlyAt_of_refersTo hu huxs
    refine ⟨distinct (xs.map expand), i, j, expand_sequence .set xs, hi, hj, ?_, expand_set⟩
    rw [← expanded]
    constructor
    · rintro rfl
      exact Option.some_inj.mp (((hi i).mpr rfl).symm.trans ((hj i).mpr rfl))
    · intro heq
      exact (hj i).mp (heq ▸ (hi i).mpr rfl)
  · intro d htd hud
    exact ⟨_, _, contains_expand_of_refersTo ht d.property htd,
      contains_expand_of_refersTo hu d.property hud, toJson_ofJson t.toJson,
      toJson_ofJson u.toJson, expanded⟩

def accuracy (hops : List Hop) : Deferred := .property ((Property.ofStep "Eval").follow hops)

/-- to a field of an entry -/
def fieldOfEntry : List Hop := [.field "Metrics", .entry "val", .field "acc"]

/-- to an entry whose key has a point in it -/
def pointedEntry : List Hop := [.field "Metrics", .entry "val.acc"]

/-- a reference, its expression and a reference that looks much like it -/
def accuracies : List Document :=
  [deferred (accuracy fieldOfEntry), expression (accuracy fieldOfEntry).toJson,
    deferred (accuracy pointedEntry)]

theorem references_kept_apart_accuracies :
    (accuracy fieldOfEntry).toJson ≠ (accuracy pointedEntry).toJson ∧
      (∃ items i j, (set accuracies).expand = sequence .set items ∧
        OnlyAt items (deferred (accuracy fieldOfEntry)).expand i ∧
        OnlyAt items (deferred (accuracy pointedEntry)).expand j ∧ i ≠ j) ∧
      ∃ x y, (set [list accuracies]).expand.Contains x ∧
        (set [list accuracies]).expand.Contains y ∧ x.toJson = (accuracy fieldOfEntry).toJson ∧
        y.toJson = (accuracy pointedEntry).toJson ∧ x ≠ y := by
  obtain ⟨hjson, hset, hdepth⟩ := references_kept_apart (.output "Eval" fieldOfEntry)
    (.output "Eval" pointedEntry) (by decide) (by decide)
  have hne : Referent.output "Eval" fieldOfEntry ≠ .output "Eval" pointedEntry := by decide
  have hfirst : deferred (accuracy fieldOfEntry) ∈ accuracies := List.mem_cons_self
  have hlast : deferred (accuracy pointedEntry) ∈ accuracies :=
    List.mem_cons_of_mem _ (List.mem_cons_of_mem _ List.mem_cons_self)
  refine ⟨fun h => hne (hjson.mp h), ?_, ?_⟩
  · obtain ⟨items, i, j, -, hi, hj, hij, hexpand⟩ := hset accuracies hfirst hlast
    exact ⟨items, i, j, hexpand (by decide), hi, hj, fun h => hne (hij.mp h)⟩
  · obtain ⟨x, y, hx, hy, hxt, hyu, hxy⟩ := hdepth ⟨set [list accuracies], by decide⟩
      (.item List.mem_cons_self (.item hfirst .here)) (.item List.mem_cons_self (.item hlast .here))
    exact ⟨x, y, hx, hy, hxt, hyu, fun h => hne (hxy.mp h)⟩

end Document

end Workflow
