import Workflow.Document.Keyed
import Workflow.Proofs.Json.Equality
import Workflow.Proofs.Json.RoundTrip

/-!
# What is sent reads back

A JSON reader gets from the text of a document what the document is sent as: the leaves as they are,
every sequence as an array of what its items are sent as, every object with the same keys in the
same order, and a reference where the value is known only to the service. There is exactly one such
value for a document.

* `Document.SentAs`            the value that a document is sent as;
* `Document.sentAs_iff`        it is the data on the wire;
* `Document.read?_wire`        the text of any value and of any document reads back.
-/

namespace Workflow.Document

/-- Nothing in the value tells the kind of a sequence, and of a parameter only its name is in it. -/
inductive SentAs : Document → Json → Prop
  | null : SentAs null .null
  | bool (b : Bool) : SentAs (bool b) (.bool b)
  | number (n : Number) : SentAs (number n) (.number n)
  | string (s : String) : SentAs (string s) (.string s)
  | sequence (kind : SequenceKind) {xs : List Document} {vs : List Json}
      (h : List.Forall₂ SentAs xs vs) : SentAs (sequence kind xs) (.array vs)
  | object {fs : List (String × Document)} {gs : List (String × Json)}
      (hkeys : Fields.keys fs = Fields.keys gs)
      (h : List.Forall₂ SentAs (fs.map Prod.snd) (gs.map Prod.snd)) :
      SentAs (object fs) (.object gs)
  | parameter (p : Parameter) :
      SentAs (parameter p) (.object [("Get", .string ("Parameters." ++ p.name))])
  | property (p : Property) : SentAs (property p) (.object [("Get", .string p.path)])
  | expression (value : Json) : SentAs (expression value) value

/-- the data on the wire is built as the value is -/
theorem sentAs_toJson (d : Document) : SentAs d d.toJson := by
  induction d using induct with
  | null => exact .null
  | bool b => exact .bool b
  | number n => exact .number n
  | string s => exact .string s
  | sequence k xs ih =>
    rw [toJson_sequence]
    apply SentAs.sequence
    rw [List.forall₂_map_right_iff, List.forall₂_same]
    exact ih
  | object fs ih =>
    rw [toJson_object]
    apply SentAs.object (Fields.keys_map toJson fs).symm
    rw [List.map_map, List.forall₂_map_left_iff, List.forall₂_map_right_iff, List.forall₂_same]
    exact ih
  | deferred d =>
    cases d with
    | parameter p => exact .parameter p
    | property p => exact .property p
    | expression value => exact .expression value

theorem SentAs.eq_toJson {d : Document} {v : Json} (h : SentAs d v) : v = d.toJson := by
  induction d using induct generalizing v with
  | null => cases h with | null => rfl
  | bool b => cases h with | bool => rfl
  | number n => cases h with | number => rfl
  | string s => cases h with | string => rfl
  | sequence k xs ih =>
    cases h with
    | @sequence _ _ vs h =>
      have hvalues : xs.map toJson = vs.map id := by
        rw [← List.forall₂_eq_eq_eq]
        exact forall₂_map_of_mem h fun x hx v _ hxv => (ih x hx hxv).symm
      rw [toJson_sequence, hvalues, List.map_id]
  | object fs ih =>
    cases h with
    | @object _ gs hkeys h =>
      have hvalues : (fs.map Prod.snd).map toJson = (gs.map Prod.snd).map id := by
        rw [← List.forall₂_eq_eq_eq]
        apply forall₂_map_of_mem h
        intro x hx v _ hxv
        obtain ⟨f, hf, rfl⟩ := List.mem_map.mp hx
        exact (ih f hf hxv).symm
      rw [toJson_object, Fields.map_eq_map hkeys hvalues]
      exact congrArg Json.object (List.map_id gs).symm
  | deferred d =>
    cases h with
    | parameter p => rfl
    | property p => rfl
    | expression value => rfl

theorem sentAs_iff {d : Document} {v : Json} : SentAs d v ↔ v = d.toJson := by
  refine ⟨SentAs.eq_toJson, ?_⟩
  rintro rfl
  exact sentAs_toJson d

/-- **The text of a value reads back as the value, and the text of a document as the one value that
the document is sent as.** -/
theorem read?_wire :
    (∀ v : Json.Keyed, Json.read? v.val.wire = some v.val) ∧
      ∀ d : Document.Keyed, ∃ v, Json.read? d.val.wire = some v ∧
        ∀ w, d.val.SentAs w ↔ w = v := by
  have value : ∀ v : Json.Keyed, Json.read? v.val.wire = some v.val :=
    Json.read?_text Json.Style.blank_wire
  refine ⟨value, ?_⟩
  intro d
  exact ⟨_, value d.toJson, fun w => sentAs_iff⟩

/-- a value with keys and strings outside ASCII, escapes and both zeros -/
def intricate : Json :=
  .object [("größe \x7b\"𝄞\\", .array [.number (.float (.zero true)), .number (.float (.zero false)),
    .number (.integer (-7) (by decide)), .string "a\n\u007f", .object []]),
    ("", .array [.null, .bool true, .array []])]

/-- every kind of sequence and of deferred node -/
def manifold : Document :=
  object [("é", tuple [set [string "x", list [null, bool true], parameter ⟨"p", .string, none⟩,
    list [bool true, null]], property ⟨"Steps.s.o"⟩]), ("v", expression intricate)]

/-- what it is sent as: of the tuple, the set and the lists only their items are left -/
def manifoldSent : Json :=
  .object [("é", .array [.array [.string "x", .array [.null, .bool true],
    .object [("Get", .string "Parameters.p")], .array [.bool true, .null]],
    .object [("Get", .string "Steps.s.o")]]), ("v", intricate)]

theorem sentAs_manifold : manifold.SentAs manifoldSent := by
  have first : SentAs (list [null, bool true]) (.array [.null, .bool true]) :=
    .sequence .list (.cons .null (.cons (.bool true) .nil))
  have second : SentAs (list [bool true, null]) (.array [.bool true, .null]) :=
    .sequence .list (.cons (.bool true) (.cons .null .nil))
  have items : SentAs
      (set [string "x", list [null, bool true], parameter ⟨"p", .string, none⟩,
        list [bool true, null]])
      (.array [.string "x", .array [.null, .bool true],
        .object [("Get", .string "Parameters.p")], .array [.bool true, .null]]) :=
    .sequence .set (.cons (.string "x") (.cons first (.cons (.parameter _) (.cons second .nil))))
  exact .object rfl (.cons (.sequence .tuple (.cons items (.cons (.property _) .nil)))
    (.cons (.expression intricate) .nil))

theorem read?_wire_intricate :
    Json.read? intricate.wire = some intricate ∧ Json.read? manifold.wire = some manifoldSent := by
  refine ⟨?_, ?_⟩
  · exact read?_wire.1 ⟨intricate, by decide⟩
  · obtain ⟨v, hread, hsent⟩ := read?_wire.2 ⟨manifold, by decide⟩
    rw [(hsent _).mp sentAs_manifold]
    exact hread

end Workflow.Document
