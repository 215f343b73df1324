import Mathlib.Logic.Relation
import Workflow.Proofs.Document.Representatives

/-!
# Expansion in stages

A document may be expanded in parts, and a deferred node may be exchanged for another with the same
expression: what is left to expand leads to the same document. The step to look at is again a set.
Its items compare differently while some of them are deferred, so it may drop other items at each
stage, but it drops only what would be dropped in the end. Of a parameter the name is in its
expression and nothing else, so its kind and its default leave no trace.

* `Document.Replaced`             a document with some of its deferred nodes replaced;
* `Document.Replaced.expand_eq`   it has the same expansion;
* `Document.namesOnly`            what expansion sees of a document;
* `Document.expand_in_stages`     stages of any number, and parameters of any kind and default.
-/

namespace Workflow

namespace Document

/-! ## deferred nodes replaced -/

/-- The second document is the first with some of its deferred nodes replaced, each by the document
of its expression or by a deferred node with the same expression. A set with items replaced is left
as it is or made distinct again. -/
inductive Replaced : Document → Document → Prop
  | kept (d : Document) : Replaced d d
  | expanded (t : Deferred) : Replaced (deferred t) (ofJson t.toJson)
  | exchanged {t u : Deferred} (h : t.toJson = u.toJson) : Replaced (deferred t) (deferred u)
  | sequence (kind : SequenceKind) {xs ys : List Document} (h : List.Forall₂ Replaced xs ys) :
      Replaced (sequence kind xs) (sequence kind ys)
  | set {xs ys : List Document} (h : List.Forall₂ Replaced xs ys)
      (hys : ∀ y ∈ ys, y.keyedThroughout = true) : Replaced (sequence .set xs) (set ys)
  | object {fs gs : List (String × Document)} (hkeys : Fields.keys fs = Fields.keys gs)
      (h : List.Forall₂ Replaced (fs.map Prod.snd) (gs.map Prod.snd)) :
      Replaced (object fs) (object gs)

/-- **A document with deferred nodes replaced has the same expansion.** -/
theorem Replaced.expand_eq {d e : Document} (h : d.Replaced e) : d.expand = e.expand := by
  induction d using induct generalizing e with
  | null => cases h with | kept => rfl
  | bool b => cases h with | kept => rfl
  | number n => cases h with | kept => rfl
  | string s => cases h with | kept => rfl
  | sequence k xs ih =>
    have items : ∀ {ys}, List.Forall₂ Replaced xs ys → xs.map expand = ys.map expand := by
      intro ys h
      rw [← List.forall₂_eq_eq_eq]
      exact forall₂_map_of_mem h fun x hx y _ hxy => ih x hx hxy
    cases h with
    | kept => rfl
    | sequence _ h => rw [expand_sequence, expand_sequence, items h]
    | set h hys =>
      -- it makes no difference that items have been left out before the others are expanded
      rw [expand_set hys, expand_sequence, items h]
      rfl
  | object fs ih =>
    cases h with
    | kept => rfl
    | @object _ gs hkeys h =>
      have hvalues : (fs.map Prod.snd).map expand = (gs.map Prod.snd).map expand := by
        rw [← List.forall₂_eq_eq_eq]
        apply forall₂_map_of_mem h
        intro v hv w _ hvw
        obtain ⟨f, hf, rfl⟩ := List.mem_map.mp hv
        exact ih f hf hvw
      rw [expand_object, expand_object, Fields.map_eq_map hkeys hvalues]
  | deferred t =>
    cases h with
    | kept => rfl
    | expanded => exact (ofJson_eq_expand t.toJson).symm
    | exchanged h => exact congrArg ofJson h

theorem expand_eq_of_stages {d e : Document} (h : Relation.ReflTransGen Replaced d e) :
    d.expand = e.expand := by
  induction h with
  | refl => rfl
  | tail _ hstep ih => exact ih.trans hstep.expand_eq

/-! ## what of a document counts -/

mutual

/-- the document with a function applied to every deferred node -/
def mapDeferred (f : Deferred → Deferred) : Document → Document
  | sequence k xs => sequence k (mapDeferredItems f xs)
  | object fs => object (mapDeferredFields f fs)
  | deferred t => deferred (f t)
  | d => d

def mapDeferredItems (f : Deferred → Deferred) : List Document → List Document
  | [] => []
  | x :: xs => mapDeferred f x :: mapDeferredItems f xs

def mapDeferredFields (f : Deferred → Deferred) :
    List (String × Document) → List (String × Document)
  | [] => []
  | (k, v) :: rest => (k, mapDeferred f v) :: mapDeferredFields f rest

end

theorem mapDeferredItems_eq (f : Deferred → Deferred) (xs : List Document) :
    mapDeferredItems f xs = xs.map (mapDeferred f) := by
  induction xs with
  | nil => rfl
  | cons x xs ih => rw [mapDeferredItems, ih, List.map_cons]

theorem mapDeferredFields_eq (f : Deferred → Deferred) (fs : List (String × Document)) :
    mapDeferredFields f fs = fs.map fun p => (p.1, mapDeferred f p.2) := by
  induction fs with
  | nil => rfl
  | cons p fs ih => rw [mapDeferredFields, ih, List.map_cons]

theorem replaced_mapDeferred {f : Deferred → Deferred} (hf : ∀ t, t.toJson = (f t).toJson)
    (d : Document) : d.Replaced (d.mapDeferred f) := by
  induction d using induct with
  | sequence k xs ih =>
    rw [mapDeferred, mapDeferredItems_eq]
    apply Replaced.sequence
    rw [List.forall₂_map_right_iff, List.forall₂_same]
    exact ih
  | object fs ih =>
    rw [mapDeferred, mapDeferredFields_eq]
    apply Replaced.object (Fields.keys_map _ fs).symm
    rw [List.map_map, List.forall₂_map_left_iff, List.forall₂_map_right_iff, List.forall₂_same]
    exact ih
  | deferred t => exact .exchanged (hf t)
  | _ => exact .kept _

end Document

/-- the deferred node, a parameter without its kind and its default -/
def Deferred.nameOnly : Deferred → Deferred
  | parameter p => parameter ⟨p.name, .string, none⟩
  | t => t

namespace Document

/-- the document with the parameters in it known by their names only -/
def namesOnly (d : Document) : Document := d.mapDeferred Deferred.nameOnly

theorem expand_namesOnly (d : Document) : d.namesOnly.expand = d.expand := by
  have hname : ∀ t : Deferred, t.toJson = t.nameOnly.toJson := by
    intro t
    cases t <;> rfl
  exact (replaced_mapDeferred hname d).expand_eq.symm

/-- **Expansion in stages comes to the same as expansion at once**: however many times some deferred
nodes are replaced, the expansion stays, and if nothing is left to expand it has been reached. And
**of a parameter only the name counts**: documents that differ in the kinds and defaults of their
parameters, each in its own way, have one expansion. -/
theorem expand_in_stages (d e : Document) :
    (Relation.ReflTransGen Replaced d e → d.expand = e.expand ∧ (e.Normal → d.expand = e)) ∧
      (d.namesOnly = e.namesOnly → d.expand = e.expand) := by
  refine ⟨?_, ?_⟩
  · intro h
    have hsame := expand_eq_of_stages h
    exact ⟨hsame, fun hnormal => hsame.trans (expand_eq_self_iff.mpr hnormal)⟩
  · intro h
    rw [← expand_namesOnly d, h, expand_namesOnly]

/-- a set and a list of references to one parameter -/
def rates (kind : ValueKind) : Document :=
  object [("Tags", sequence .set [parameter ⟨"Rate", kind, none⟩,
      expression (getExpression "Parameters.Rate"), string "x"]),
    ("Rates", list [parameter ⟨"Rate", kind, none⟩, property ⟨"Parameters.Rate"⟩])]

/-- the first item of the set expanded, all items still different, and the list exchanged -/
def ratesBetween : Document :=
  object [("Tags", set [ofJson (getExpression "Parameters.Rate"),
      expression (getExpression "Parameters.Rate"), string "x"]),
    ("Rates", list [property ⟨"Parameters.Rate"⟩, parameter ⟨"Rate", .string, none⟩])]

def ratesExpanded : Document :=
  object [("Tags", set [ofJson (getExpression "Parameters.Rate"), string "x"]),
    ("Rates", list [ofJson (getExpression "Parameters.Rate"),
      ofJson (getExpression "Parameters.Rate")])]

theorem expand_in_stages_rates :
    (rates .float).expand = ratesExpanded ∧ (rates .float).expand = (rates .integer).expand := by
  have first : (rates .float).Replaced ratesBetween :=
    .object rfl (.cons
      (.set (.cons (.expanded _) (.cons (.kept _) (.cons (.kept _) .nil))) (by decide))
      (.cons (.sequence .list (.cons (.exchanged rfl) (.cons (.exchanged rfl) .nil))) .nil))
  have tags : Replaced
      (set [ofJson (getExpression "Parameters.Rate"), expression (getExpression "Parameters.Rate"),
        string "x"])
      (set [ofJson (getExpression "Parameters.Rate"), ofJson (getExpression "Parameters.Rate"),
        string "x"]) :=
    .set (.cons (.kept _) (.cons (.expanded _) (.cons (.kept _) .nil))) (by decide)
  have second : ratesBetween.Replaced ratesExpanded :=
    .object rfl (.cons tags
      (.cons (.sequence .list (.cons (.expanded _) (.cons (.expanded _) .nil))) .nil))
  have stages : Relation.ReflTransGen Replaced (rates .float) ratesExpanded :=
    .tail (.single first) second
  have normal : ratesExpanded.Normal := expand_eq_self_iff.mp rfl
  exact ⟨((expand_in_stages _ _).1 stages).2 normal, (expand_in_stages _ _).2 rfl⟩

end Document

end Workflow
