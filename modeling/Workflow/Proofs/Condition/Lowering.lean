import Workflow.Proofs.Condition.Operands

/-!
# What the request form of a condition tells

The request form names the test and holds the operands, which may be any documents, those that look
like a condition included. A condition can be told from its form: the test and the keys say which
fields hold conditions, and these are read the same way, while operands are taken as they are.
Apart from its operands a condition is its frame, and expanding the form of a condition keeps the
frame and expands the operands.

* `Condition.operands`             the operands in order, at any depth;
* `Condition.frame`                the condition with nothing for its operands;
* `Condition.toDocument_inj`       conditions with one request form are the same;
* `Condition.eq_of_frame`          a condition is its frame and its operands;
* `Condition.lowering_faithful`    both, and what expanding the form does.
-/

namespace Workflow

theorem Comparison.name_injective {s t : Comparison} (h : s.name = t.name) : s = t := by
  cases s <;> cases t <;> first | rfl | exact absurd h (by decide)

namespace Condition

open Document (expand)

/-! ## forms -/

mutual

theorem toDocument_inj (c d : Condition) (h : c.toDocument = d.toDocument) : c = d := by
  cases c with
  | compare test left right =>
    cases d with
    | compare test' left' right' =>
      simp only [toDocument, typeEntry, typeName, Document.object.injEq, List.cons.injEq,
        Prod.mk.injEq, Document.string.injEq, true_and, and_true] at h
      obtain ⟨hname, rfl, rfl⟩ := h
      rw [Comparison.name_injective hname]
    | _ => simp [toDocument] at h
  | isIn query values =>
    cases d with
    | isIn query' values' =>
      simp only [toDocument, typeEntry, typeName, Document.list, Document.object.injEq,
        List.cons.injEq, Prod.mk.injEq, Document.sequence.injEq, true_and, and_true] at h
      obtain ⟨rfl, rfl⟩ := h
      rfl
    | _ => simp [toDocument] at h
  | not condition =>
    cases d with
    | not condition' =>
      simp only [toDocument, typeEntry, typeName, Document.object.injEq, List.cons.injEq,
        Prod.mk.injEq, true_and, and_true] at h
      rw [toDocument_inj condition condition' h]
    | _ => simp [toDocument] at h
  | any conditions =>
    cases d with
    | any conditions' =>
      simp only [toDocument, typeEntry, typeName, Document.list, Document.object.injEq,
        List.cons.injEq, Prod.mk.injEq, Document.sequence.injEq, true_and, and_true] at h
      rw [toDocuments_inj conditions conditions' h]
    | _ => simp [toDocument] at h

theorem toDocuments_inj (cs ds : List Condition) (h : toDocuments cs = toDocuments ds) :
    cs = ds := by
  cases cs with
  | nil =>
    cases ds with
    | nil => rfl
    | cons d ds => cases h
  | cons c cs =>
    cases ds with
    | nil => cases h
    | cons d ds =>
      obtain ⟨hfirst, hrest⟩ := List.cons.inj h
      rw [toDocument_inj c d hfirst, toDocuments_inj cs ds hrest]

end

/-! ## frame and operands -/

mutual

/-- the operands in order, those of inner conditions included -/
def operands : Condition → List Document
  | compare _ left right => [left, right]
  | isIn query values => query :: values
  | not condition => operands condition
  | any conditions => operandsOf conditions

def operandsOf : List Condition → List Document
  | [] => []
  | c :: cs => operands c ++ operandsOf cs

end

variable (f g : Document → Document)

mutual

theorem operands_mapOperands (c : Condition) : (c.mapOperands f).operands = c.operands.map f := by
  cases c with
  | compare test left right => rfl
  | isIn query values => rfl
  | not condition => exact operands_mapOperands condition
  | any conditions => exact operandsOf_mapOperandsOf conditions

theorem operandsOf_mapOperandsOf (cs : List Condition) :
    operandsOf (mapOperandsOf f cs) = (operandsOf cs).map f := by
  cases cs with
  | nil => rfl
  | cons c cs =>
    rw [mapOperandsOf, operandsOf, operands_mapOperands c, operandsOf_mapOperandsOf cs, operandsOf,
      List.map_append]

end

mutual

theorem mapOperands_mapOperands (c : Condition) :
    (c.mapOperands f).mapOperands g = c.mapOperands (g ∘ f) := by
  cases c with
  | compare test left right => rfl
  | isIn query values => simp only [mapOperands, List.map_map, Function.comp_apply]
  | not condition => simp only [mapOperands, mapOperands_mapOperands condition]
  | any conditions => simp only [mapOperands, mapOperandsOf_mapOperandsOf conditions]

theorem mapOperandsOf_mapOperandsOf (cs : List Condition) :
    mapOperandsOf g (mapOperandsOf f cs) = mapOperandsOf (g ∘ f) cs := by
  cases cs with
  | nil => rfl
  | cons c cs =>
    rw [mapOperandsOf, mapOperandsOf, mapOperands_mapOperands c, mapOperandsOf_mapOperandsOf cs,
      mapOperandsOf]

end

/-- the condition with nothing for its operands -/
def frame (c : Condition) : Condition := c.mapOperands fun _ => .null

theorem frame_mapOperands (c : Condition) : (c.mapOperands f).frame = c.frame :=
  mapOperands_mapOperands f (fun _ => .null) c

theorem length_operands_frame (c : Condition) : c.frame.operands.length = c.operands.length := by
  rw [frame, operands_mapOperands, List.length_map]

theorem length_operands_of_frame {c d : Condition} (h : c.frame = d.frame) :
    c.operands.length = d.operands.length := by
  rw [← length_operands_frame, h, length_operands_frame]

mutual

/-- **A condition is its frame and its operands.** -/
theorem eq_of_frame (c d : Condition) (hframe : c.frame = d.frame)
    (hoperands : c.operands = d.operands) : c = d := by
  cases c with
  | compare test left right =>
    cases d with
    | compare test' left' right' =>
      cases hframe
      cases hoperands
      rfl
    | _ => cases hframe
  | isIn query values =>
    cases d with
    | isIn query' values' =>
      obtain ⟨rfl, rfl⟩ := List.cons.inj hoperands
      rfl
    | _ => cases hframe
  | not condition =>
    cases d with
    | not condition' =>
      rw [eq_of_frame condition condition' (not.inj hframe) hoperands]
    | _ => cases hframe
  | any conditions =>
    cases d with
    | any conditions' =>
      rw [eq_of_framesOf conditions conditions' (any.inj hframe) hoperands]
    | _ => cases hframe

theorem eq_of_framesOf (cs ds : List Condition)
    (hframe : mapOperandsOf (fun _ => .null) cs = mapOperandsOf (fun _ => .null) ds)
    (hoperands : operandsOf cs = operandsOf ds) : cs = ds := by
  cases cs with
  | nil =>
    cases ds with
    | nil => rfl
    | cons d ds => cases hframe
  | cons c cs =>
    cases ds with
    | nil => cases hframe
    | cons d ds =>
      obtain ⟨hfirst, hrest⟩ := List.cons.inj hframe
      obtain ⟨hc, hcs⟩ := List.append_inj hoperands (length_operands_of_frame hfirst)
      rw [eq_of_frame c d hfirst hc, eq_of_framesOf cs ds hrest hcs]

end

theorem frame_eq_mapOperands_iff {c d : Condition} :
    d = c.mapOperands f ↔ d.frame = c.frame ∧ d.operands = c.operands.map f := by
  constructor
  · rintro rfl
    exact ⟨frame_mapOperands f c, operands_mapOperands f c⟩
  · rintro ⟨hframe, hoperands⟩
    refine eq_of_frame d _ ?_ ?_
    · rw [hframe, frame_mapOperands]
    · rw [hoperands, operands_mapOperands]

/-- **A condition survives its lowering.** Its request form is that of no other condition, whatever
documents its operands are. Expanding the form gives the form of one condition: the one of the same
frame whose operands are the expanded ones in order. The values of a membership stay a list, as long
as it was. -/
theorem lowering_faithful (c d : Condition) :
    (c.toDocument = d.toDocument ↔ c = d) ∧
    c.toDocument.expand = (c.mapOperands expand).toDocument ∧
    (c.toDocument.expand = d.toDocument ↔
      d.frame = c.frame ∧ d.operands = c.operands.map expand) ∧
    ∀ query values, (isIn query values).toDocument.expand =
      .object [("Type", .string "In"), ("QueryValue", query.expand),
        ("Values", .sequence .list (values.map expand))] := by
  refine ⟨⟨toDocument_inj c d, congrArg toDocument⟩, expand_toDocument c, ?_, ?_⟩
  · rw [expand_toDocument, ← frame_eq_mapOperands_iff]
    constructor
    · intro h
      exact (toDocument_inj _ d h).symm
    · rintro rfl
      rfl
  · intro query values
    exact expand_toDocument (isIn query values)

end Condition

end Workflow
