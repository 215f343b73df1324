import Workflow.Proofs.Config.Reference
import Workflow.Proofs.Pipeline.Declaration

/-!
# Which parameters can be referred to

A parameter may have any name that is not blank, but the path of a placeholder has neither white
space nor a brace in it. So a parameter is referred to by its name exactly if its name has none. A
reference by another name is sent as a string, or, where the name only ends in white space, taken
for a reference to the parameter of the name without it.

* `Placeholder.reference`               a reference to a parameter as it is written;
* `Placeholder.Referable`               the names without white space and braces;
* `Placeholder.ofText?_reference_iff`   the placeholder that a reference is, if it is one;
* `at?_resolve`, `Json.at?_substitute`  what a part of the arguments becomes;
* `Configuration.reference_of_name`     what becomes of a reference to a declared parameter.
-/

namespace Workflow

open Text (isSpace skipSpace skipSpace_append)

namespace Placeholder

/-- the parameter of that name, in double braces -/
def reference (name : String) : String := "\x7b\x7b Parameters." ++ name ++ " \x7d\x7d"

/-- neither white space nor a brace is in the name -/
def Referable (name : String) : Prop := ∀ c ∈ name.toList, isPathChar c = true

theorem toList_reference (name : String) : (reference name).toList =
    ['\x7b', '\x7b'] ++ ([' '] ++ (Root.parameters.name.toList ++ ['.'] ++
      (name.toList ++ [' ', '\x7d', '\x7d']))) := by
  rw [reference, String.toList_append, String.toList_append, List.append_assoc]
  rfl

/-- white space at the end of the name goes to the white space of the placeholder -/
theorem ofText?_reference_iff {name : String} {p : Placeholder} :
    ofText? (reference name) = some p ↔ p.root = .parameters ∧ p.path ≠ "" ∧ Referable p.path ∧
      ∃ blank : List Char, (∀ c ∈ blank, isSpace c = true) ∧
        name.toList = p.path.toList ++ blank := by
  obtain ⟨root, path⟩ := p
  rw [ofText?_iff]
  constructor
  · rintro ⟨before, after, hbefore, hafter, hne, hpath, hs⟩
    rw [toList_reference] at hs
    have hopen := congrArg skipSpace (List.append_cancel_left hs)
    rw [skipSpace_append (List.forall_mem_singleton.mpr rfl) (name_head _ _),
      skipSpace_append hbefore (name_head _ _)] at hopen
    have hroot := congrArg root? hopen
    rw [root?_eq_some_iff.mpr rfl, root?_eq_some_iff.mpr rfl, Option.some_inj] at hroot
    obtain ⟨rfl, hrest⟩ := Prod.mk.inj hroot
    have hclose : (name.toList ++ [' ']) ++ ['\x7d', '\x7d'] =
        (path.toList ++ after) ++ ['\x7d', '\x7d'] := by
      simpa using hrest
    have hname := List.append_cancel_right hclose
    refine ⟨rfl, hne, hpath, ?_⟩
    -- the blank before the closing braces is the last of the white space
    rcases List.eq_nil_or_concat' after with rfl | ⟨blank, c, rfl⟩
    · rw [List.append_nil] at hname
      cases hpath ' ' (hname ▸ List.mem_append_right _ List.mem_cons_self)
    · rw [← List.append_assoc] at hname
      obtain ⟨hname, -⟩ := List.append_inj' hname rfl
      exact ⟨blank, fun d hd => hafter d (List.mem_append_left _ hd), hname⟩
  · rintro ⟨rfl, hne, hpath, blank, hblank, hname⟩
    refine ⟨[' '], blank ++ [' '], List.forall_mem_singleton.mpr rfl, ?_, hne, hpath, ?_⟩
    · rw [List.forall_mem_append, List.forall_mem_singleton]
      exact ⟨hblank, rfl⟩
    · rw [toList_reference, hname]
      simp only [List.append_assoc]
      rfl

/-- a reference by a name that can be referred to is the placeholder of that name -/
theorem ofText?_reference {name : String} (hname : Text.isBlank name = false)
    (h : Referable name) : ofText? (reference name) = some ⟨.parameters, name⟩ := by
  refine ofText?_reference_iff.mpr ⟨rfl, ?_, h, [], nofun, (List.append_nil _).symm⟩
  rintro rfl
  cases hname

end Placeholder

/-! ## parts of the arguments -/

theorem exists_getElem?_of_forall₂ {α β : Type} {R : α → β → Prop} {xs : List α} {ys : List β}
    (h : List.Forall₂ R xs ys) {i : Nat} {x : α} (hx : xs[i]? = some x) :
    ∃ y, ys[i]? = some y ∧ R x y := by
  induction h generalizing i with
  | nil => cases hx
  | cons hxy _ ih =>
    cases i with
    | zero => exact ⟨_, rfl, Option.some_inj.mp hx ▸ hxy⟩
    | succ i => exact ih hx

theorem part?_resolve {declared : List Parameter} {v : Json} {d : Document}
    (h : resolve declared v = .ok d) (s : Selector) :
    ∀ w ∈ v.part? s, ∃ e ∈ d.part? s, resolve declared w = .ok e := by
  intro w hw
  cases v with
  | array xs =>
    cases s with
    | key k => cases hw
    | index i =>
      obtain ⟨ds, hds, rfl⟩ := resolve_array_eq_ok.mp h
      exact exists_getElem?_of_forall₂ hds hw
  | object fs =>
    cases s with
    | index i => cases hw
    | key k =>
      obtain ⟨gs, hgs, rfl⟩ := resolve_object_eq_ok.mp h
      have agree : Fields.Agree (fun w e => resolve declared w = .ok e) fs gs :=
        .of_forall₂ (hgs.imp fun _ _ hfg => ⟨hfg.1.symm, hfg.2⟩)
      exact exists_mem_of_rel (agree k) hw
  | _ => cases hw

/-- a part of the arguments is resolved where it stands -/
theorem at?_resolve {declared : List Parameter} {v w : Json} {d : Document} {loc : Location}
    (h : resolve declared v = .ok d) (hw : v.at? loc = some w) :
    ∃ e, d.at? loc = some e ∧ resolve declared w = .ok e :=
  Location.follow (R := fun v d => resolve declared v = .ok d) part?_resolve h loc hw

theorem Json.part?_of_substitute (v : Json) (s : Selector) :
    ∀ w ∈ v.part? s, w.substitute ∈ v.substitute.part? s := by
  intro w hw
  cases v with
  | array xs =>
    cases s with
    | key k => cases hw
    | index i =>
      rw [substitute, substituteItems_eq, part?, List.getElem?_map]
      exact Option.mem_map_of_mem _ hw
  | object fs =>
    cases s with
    | index i => cases hw
    | key k =>
      rw [substitute, substituteFields_eq, part?, Fields.get?_map]
      exact Option.mem_map_of_mem _ hw
  | _ => cases hw

/-- a part of the arguments is sent where it stands -/
theorem Json.at?_substitute {v w : Json} {loc : Location} (hw : v.at? loc = some w) :
    v.substitute.at? loc = some w.substitute := by
  have step : ∀ {a b : Json}, b = a.substitute → ∀ s, ∀ a' ∈ a.part? s,
      ∃ b' ∈ b.part? s, b' = a'.substitute := by
    rintro a _ rfl s a' ha'
    exact ⟨a'.substitute, part?_of_substitute a s a' ha', rfl⟩
  obtain ⟨_, hat, rfl⟩ :=
    Location.follow (R := fun a b => b = a.substitute) step rfl loc hw
  exact hat

namespace Configuration

open Placeholder (reference Referable)

theorem declared_of_build {c : Configuration} {p : Pipeline} (h : c.build = .ok p) :
    p.Declared := by
  obtain ⟨parameters, steps, hparameters, -, hp⟩ := build_eq_ok.mp h
  obtain ⟨-, hnames, rfl⟩ := assemble_eq_ok.mp hp
  refine ⟨Pipeline.repeatedName?_nil_eq_none_iff.mp hnames, ?_⟩
  intro q hq
  obtain ⟨s, hs⟩ := exists_forall₂_iff.mp ⟨_, hparameters.flip⟩ q hq
  exact (ParameterSpec.build_eq_ok.mp hs).2

/-- the location of a part of the arguments in the request -/
def argumentAt (i : Nat) (loc : Location) : Location :=
  .key "Steps" :: .index i :: .key "Arguments" :: loc

theorem at?_argumentAt {c : Configuration} {i : Nat} {s : StepSpec} (hs : c.steps[i]? = some s)
    (loc : Location) : c.document.at? (argumentAt i loc) = s.arguments.val.substitute.at? loc := by
  show ((c.steps.map StepSpec.fragment)[i]?.bind fun w => w.at? (.key "Arguments" :: loc)) = _
  rw [List.getElem?_map, hs]
  rfl

section
variable {p : Pipeline} (declared : p.Declared) {q : Parameter} {d : Document}
include declared

/-- a reference by a name that can be referred to becomes the parameter of that name -/
theorem reference_of_referable (hq : q ∈ p.parameters)
    (hd : resolve p.parameters (.string (reference q.name)) = .ok d) (h : Referable q.name) :
    d = .parameter q ∧
      (Json.string (reference q.name)).substitute = getExpression ("Parameters." ++ q.name) := by
  have placeholder := Placeholder.ofText?_reference (declared.proper q hq).name_not_blank h
  have target : Placeholder.target p.parameters ⟨.parameters, q.name⟩ = .ok (.parameter q) :=
    Placeholder.target_parameter_eq_ok.mpr
      ⟨q, declared.parameter?_eq_some_iff.mpr ⟨hq, rfl⟩, rfl⟩
  rw [Json.substitute, placeholder]
  refine ⟨?_, rfl⟩
  rcases resolveText_eq_ok.mp hd with ⟨hnone, -⟩ | ⟨r, u, hr, hu, rfl⟩
  · cases hnone.symm.trans placeholder
  · obtain rfl := Option.some_inj.mp (hr.symm.trans placeholder)
    obtain rfl := Except.ok.inj (hu.symm.trans target)
    rfl

/-- a reference by any other name is no reference, or one to another parameter -/
theorem reference_of_not_referable
    (hd : resolve p.parameters (.string (reference q.name)) = .ok d) (h : ¬ Referable q.name) :
    d ≠ .parameter q ∧ ((Json.string (reference q.name)).substitute = .string (reference q.name) ∨
      ∃ r ∈ p.parameters, r.name ≠ q.name ∧
        (Json.string (reference q.name)).substitute = getExpression ("Parameters." ++ r.name)) := by
  rw [Json.substitute]
  rcases resolveText_eq_ok.mp hd with ⟨hnone, rfl⟩ | ⟨r, u, hr, hu, rfl⟩
  · rw [hnone]
    refine ⟨?_, .inl rfl⟩
    intro e
    cases e
  · obtain ⟨hroot, -, hpath, -⟩ := Placeholder.ofText?_reference_iff.mp hr
    obtain ⟨root, path⟩ := r
    obtain rfl : root = .parameters := hroot
    obtain ⟨other, hother, rfl⟩ := Placeholder.target_parameter_eq_ok.mp hu
    obtain ⟨hmem, rfl⟩ := declared.parameter?_eq_some_iff.mp hother
    have hne : other.name ≠ q.name := fun e => h (e ▸ hpath)
    rw [hr]
    refine ⟨?_, .inr ⟨other, hmem, hne, rfl⟩⟩
    intro e
    cases e
    exact hne rfl

end

/-- **A declared parameter is referred to by its name exactly if white space and braces are not in
it.** A reference by another name is sent as it is written, or it refers to another parameter. -/
theorem reference_of_name {c : Configuration} (h : c.check = .ok ()) :
    ∃ p, c.build = .ok p ∧ p.definition = c.document.wire ∧
      Json.read? p.definition = some c.document ∧
      ∀ q ∈ p.parameters, ∀ i s t loc, c.steps[i]? = some s → p.steps[i]? = some t →
        s.arguments.val.at? loc = some (.string (reference q.name)) →
          (Referable q.name → t.arguments.at? loc = some (.parameter q) ∧
            c.document.at? (argumentAt i loc) =
              some (getExpression ("Parameters." ++ q.name))) ∧
          (¬ Referable q.name → t.arguments.at? loc ≠ some (.parameter q) ∧
            (c.document.at? (argumentAt i loc) = some (.string (reference q.name)) ∨
              ∃ r ∈ p.parameters, r.name ≠ q.name ∧ c.document.at? (argumentAt i loc) =
                some (getExpression ("Parameters." ++ r.name)))) := by
  obtain ⟨p, hp⟩ := build_of_check h
  obtain ⟨hdefinition, hread⟩ := definition_eq_wire hp
  refine ⟨p, hp, hdefinition, hread, ?_⟩
  intro q hq i s t loc hs ht hloc
  obtain ⟨t', ht', hbuild⟩ := exists_getElem?_of_forall₂ (parts_of_build hp).2 hs
  obtain rfl : t' = t := Option.some_inj.mp (ht'.symm.trans ht)
  obtain ⟨d, hd, hresolve⟩ := at?_resolve (StepSpec.build_eq_ok.mp hbuild).2.2 hloc
  have declared := declared_of_build hp
  simp only [hd, at?_argumentAt hs loc, Json.at?_substitute hloc, ne_eq, Option.some_inj]
  exact ⟨reference_of_referable declared hq hresolve, reference_of_not_referable declared hresolve⟩

/-- two parameters, a blank in the name of one of them, and a reference to each -/
def spacedName : Configuration where
  name := "p"
  description? := none
  metadata := .ofPairs []
  parameters := [⟨"rate", .float, none⟩, ⟨"learning rate", .float, none⟩]
  steps := [⟨"s", "Training", ⟨.object [("a", .array [.string (reference "rate")]),
    ("b", .string (reference "learning rate"))], by decide⟩⟩]

theorem not_referable_spaced : ¬ Referable "learning rate" := by
  intro h
  cases h ' ' (by decide)

theorem reference_of_name_spaced : ∃ p t, spacedName.build = .ok p ∧ p.steps = [t] ∧
    t.arguments.at? [.key "a", .index 0] = some (.parameter ⟨"rate", .float, none⟩) ∧
    t.arguments.at? [.key "b"] ≠ some (.parameter ⟨"learning rate", .float, none⟩) := by
  obtain ⟨p, hp, -, -, hreference⟩ := reference_of_name (c := spacedName) rfl
  obtain ⟨hparameters, hsteps⟩ := parts_of_build hp
  obtain ⟨t, rest, -, hrest, hsingle⟩ := List.forall₂_cons_left_iff.mp hsteps
  obtain rfl := List.forall₂_nil_left_iff.mp hrest
  have ht : p.steps[0]? = some t := by
    rw [hsingle]
    rfl
  have rate : Parameter.mk "rate" .float none ∈ p.parameters := by
    rw [hparameters]
    exact List.mem_cons_self
  have learningRate : Parameter.mk "learning rate" .float none ∈ p.parameters := by
    rw [hparameters]
    exact List.mem_cons_of_mem _ List.mem_cons_self
  have hrate := hreference _ rate 0 _ t [.key "a", .index 0] rfl ht rfl
  have hlearningRate := hreference _ learningRate 0 _ t [.key "b"] rfl ht rfl
  refine ⟨p, t, hp, hsingle, (hrate.1 ?_).1, (hlearningRate.2 not_referable_spaced).1⟩
  exact List.all_eq_true.mp rfl

/-- a declared parameter with a blank in its name, the reference to which is sent as it is written -/
theorem reference_sent_as_text : spacedName.check = .ok () ∧ ∃ p v, spacedName.build = .ok p ∧
    (∃ q ∈ p.parameters, q.name = "learning rate") ∧ Json.read? p.definition = some v ∧
    spacedName.steps[0]?.bind (fun s => s.arguments.val.at? [.key "b"]) =
      some (.string (reference "learning rate")) ∧
    v.at? (argumentAt 0 [.key "b"]) = some (.string "\x7b\x7b Parameters.learning rate \x7d\x7d") := by
  have hcheck : spacedName.check = .ok () := rfl
  obtain ⟨p, hp⟩ := build_of_check hcheck
  refine ⟨hcheck, p, spacedName.document, hp, ?_, (definition_eq_wire hp).2, rfl, rfl⟩
  rw [(parts_of_build hp).1]
  exact ⟨⟨"learning rate", .float, none⟩, List.mem_cons_of_mem _ List.mem_cons_self, rfl⟩

end Configuration

end Workflow
