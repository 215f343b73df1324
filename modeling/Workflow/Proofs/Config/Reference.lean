import Workflow.Proofs.Config.Schema
import Workflow.Proofs.Document.Location

/-!
# No reference leads nowhere

Every placeholder in the arguments of a step becomes one deferred value, and every deferred value
comes from a placeholder, in document order. What it refers to is a parameter that is declared, an
output of a step or a variable of the run. So a reference to a parameter that is found in the
definition either is written there as an object, or names a parameter of the definition.

* `Json.placeholders`, `Document.deferreds`   the placeholders and the deferred values in order;
* `Deferred.Grounded`                         what a deferred value may refer to;
* `forall₂_target_deferreds`                  each placeholder becomes its deferred value;
* `Configuration.WrittenAt`                   an object of the definition that is written there;
* `Configuration.references_grounded`         the deferred values and references of a definition.
-/

namespace Workflow

/-! ## placeholders and deferred values -/

namespace Json

mutual

/-- the placeholders among the strings of a value at any depth, in document order -/
def placeholders : Json → List Placeholder
  | string s => (Placeholder.ofText? s).toList
  | array xs => placeholdersOfItems xs
  | object fs => placeholdersOfFields fs
  | _ => []

def placeholdersOfItems : List Json → List Placeholder
  | [] => []
  | x :: xs => placeholders x ++ placeholdersOfItems xs

def placeholdersOfFields : List (String × Json) → List Placeholder
  | [] => []
  | (_, v) :: rest => placeholders v ++ placeholdersOfFields rest

end

theorem placeholdersOfItems_eq (xs : List Json) :
    placeholdersOfItems xs = xs.flatMap placeholders := by
  induction xs with
  | nil => rfl
  | cons x xs ih => rw [placeholdersOfItems, ih, List.flatMap_cons]

theorem placeholdersOfFields_eq (fs : List (String × Json)) :
    placeholdersOfFields fs = fs.flatMap fun f => placeholders f.2 := by
  induction fs with
  | nil => rfl
  | cons f fs ih => rw [placeholdersOfFields, ih, List.flatMap_cons]

end Json

namespace Document

mutual

/-- the deferred values at any depth of a document, in document order -/
def deferreds : Document → List Deferred
  | deferred d => [d]
  | sequence _ xs => deferredsOfItems xs
  | object fs => deferredsOfFields fs
  | _ => []

def deferredsOfItems : List Document → List Deferred
  | [] => []
  | x :: xs => deferreds x ++ deferredsOfItems xs

def deferredsOfFields : List (String × Document) → List Deferred
  | [] => []
  | (_, d) :: rest => deferreds d ++ deferredsOfFields rest

end

theorem deferredsOfItems_eq (xs : List Document) : deferredsOfItems xs = xs.flatMap deferreds := by
  induction xs with
  | nil => rfl
  | cons x xs ih => rw [deferredsOfItems, ih, List.flatMap_cons]

theorem deferredsOfFields_eq (fs : List (String × Document)) :
    deferredsOfFields fs = fs.flatMap fun f => deferreds f.2 := by
  induction fs with
  | nil => rfl
  | cons f fs ih => rw [deferredsOfFields, ih, List.flatMap_cons]

end Document

/-- **Each placeholder becomes its deferred value**, in document order and with nothing between. -/
theorem forall₂_target_deferreds {declared : List Parameter} {v : Json} : ∀ {d : Document},
    resolve declared v = .ok d →
      List.Forall₂ (fun p t => p.target declared = .ok t) v.placeholders d.deferreds := by
  induction v using Json.induct with
  | null => exact fun h => Except.ok.inj h ▸ .nil
  | bool b => exact fun h => Except.ok.inj h ▸ .nil
  | number n => exact fun h => Except.ok.inj h ▸ .nil
  | string s =>
    intro d h
    rw [Json.placeholders]
    rcases resolveText_eq_ok.mp h with ⟨hs, rfl⟩ | ⟨p, t, hs, ht, rfl⟩
    · rw [hs]
      exact .nil
    · rw [hs]
      exact .cons ht .nil
  | array xs ih =>
    intro d h
    obtain ⟨ds, hds, rfl⟩ := resolve_array_eq_ok.mp h
    rw [Json.placeholders, Json.placeholdersOfItems_eq, Document.list, Document.deferreds,
      Document.deferredsOfItems_eq]
    exact List.rel_flatMap (forall₂_imp_of_mem hds fun x hx d _ hd => ih x hx hd) fun _ _ h => h
  | object fs ih =>
    intro d h
    obtain ⟨gs, hgs, rfl⟩ := resolve_object_eq_ok.mp h
    rw [Json.placeholders, Json.placeholdersOfFields_eq, Document.deferreds,
      Document.deferredsOfFields_eq]
    exact List.rel_flatMap (forall₂_imp_of_mem hgs fun f hf g _ hg => ih f hf hg.2) fun _ _ h => h

/-- a declared parameter, an output of a step or a variable of the run -/
inductive Deferred.Grounded (declared : List Parameter) : Deferred → Prop where
  | parameter {q : Parameter} (hq : q ∈ declared) : Grounded declared (.parameter q)
  | property (path : String) : Grounded declared (.property ⟨"Steps." ++ path⟩)
  | expression (v : RunVariable) : Grounded declared (.expression v.expression)

theorem Placeholder.target_parameter_eq_ok {declared : List Parameter} {path : String}
    {t : Deferred} : target declared ⟨.parameters, path⟩ = .ok t ↔
      ∃ q, (declared.find? fun q => q.name == path) = some q ∧ t = .parameter q := by
  rw [target]
  cases declared.find? fun q => q.name == path <;> simp [eq_comm]

theorem Placeholder.grounded_target {declared : List Parameter} {p : Placeholder} {t : Deferred}
    (h : p.target declared = .ok t) : t.Grounded declared := by
  obtain ⟨root, path⟩ := p
  cases root with
  | parameters =>
    obtain ⟨q, hq, rfl⟩ := target_parameter_eq_ok.mp h
    exact .parameter (List.mem_of_find?_eq_some hq)
  | steps =>
    obtain rfl := Except.ok.inj h
    exact .property path
  | execution =>
    simp only [target] at h
    split at h
    · rename_i v _
      obtain rfl := Except.ok.inj h
      exact .expression v
    · cases h

/-! ## references in a request -/

namespace Json

/-- an object in an array is in one of the items -/
theorem exists_item_of_at? {xs : List Json} {loc : Location} {fs : List (String × Json)}
    (h : (array xs).at? loc = some (object fs)) :
    ∃ i x rest, loc = .index i :: rest ∧ xs[i]? = some x ∧ x.at? rest = some (object fs) := by
  cases loc with
  | nil => cases Option.some_inj.mp h
  | cons s rest =>
    obtain ⟨x, hx, hrest⟩ := Option.bind_eq_some_iff.mp h
    cases s with
    | key k => cases hx
    | index i => exact ⟨i, x, rest, rfl, hx, hrest⟩

theorem at?_of_leaf {v w : Json} {loc : Location} (hleaf : ∀ s, v.part? s = none)
    (h : v.at? loc = some w) : v = w := by
  cases loc with
  | nil => exact Option.some_inj.mp h
  | cons s rest =>
    rw [at?_cons, hleaf s] at h
    cases h

/-- a part of what is sent is what is sent for a part, or the path of a reference -/
theorem part?_substitute {v w : Json} {s : Selector} (h : v.substitute.part? s = some w) :
    (∃ u, v.part? s = some u ∧ w = u.substitute) ∨ ∃ path, w = string path := by
  cases v with
  | string t =>
    rw [substitute] at h
    cases ht : Placeholder.ofText? t with
    | none =>
      rw [ht] at h
      cases h
    | some p =>
      rw [ht] at h
      cases s with
      | index i => cases h
      | key k =>
        have field := Fields.mem_of_get? h
        obtain ⟨-, rfl⟩ := Prod.mk.inj (List.mem_singleton.mp field)
        exact .inr ⟨_, rfl⟩
  | array xs =>
    cases s with
    | key k => cases h
    | index i =>
      rw [substitute, substituteItems_eq, part?, List.getElem?_map] at h
      obtain ⟨u, hu, rfl⟩ := Option.map_eq_some_iff.mp h
      exact .inl ⟨u, hu, rfl⟩
  | object fs =>
    cases s with
    | index i => cases h
    | key k =>
      rw [substitute, substituteFields_eq, part?, Fields.get?_map] at h
      obtain ⟨u, hu, rfl⟩ := Option.map_eq_some_iff.mp h
      exact .inl ⟨u, hu, rfl⟩
  | _ => cases h

/-- an object in what is sent stands where an object or a placeholder is written -/
theorem exists_of_at?_substitute {v : Json} {loc : Location} {fs : List (String × Json)}
    (h : v.substitute.at? loc = some (object fs)) :
    ∃ u, v.at? loc = some u ∧ u.substitute = object fs := by
  induction loc generalizing v with
  | nil => exact ⟨v, rfl, Option.some_inj.mp h⟩
  | cons s rest ih =>
    obtain ⟨w, hw, hrest⟩ := Option.bind_eq_some_iff.mp h
    rcases part?_substitute hw with ⟨u, hu, rfl⟩ | ⟨path, rfl⟩
    · obtain ⟨x, hx, hfs⟩ := ih hrest
      exact ⟨x, Option.bind_eq_some_iff.mpr ⟨u, hu, hx⟩, hfs⟩
    · cases at?_of_leaf (fun _ => rfl) hrest

theorem eq_string_of_substitute {v : Json} {t : String} (h : v.substitute = string t) :
    v = string t := by
  cases v with
  | string s =>
    rw [substitute] at h
    cases hs : Placeholder.ofText? s with
    | none =>
      rw [hs] at h
      exact h
    | some p =>
      rw [hs] at h
      cases h
  | _ => cases h

theorem PlaceholdersKnown.at? {names : List String} {v w : Json} {loc : Location}
    (hv : v.PlaceholdersKnown names) (h : v.at? loc = some w) : w.PlaceholdersKnown names := by
  induction loc generalizing v with
  | nil => exact Option.some_inj.mp h ▸ hv
  | cons s rest ih =>
    obtain ⟨u, hu, hrest⟩ := Option.bind_eq_some_iff.mp h
    refine ih ?_ hrest
    cases v with
    | array xs =>
      cases s with
      | key k => cases hu
      | index i => exact placeholdersKnown_array_iff.mp hv u (List.mem_of_getElem? hu)
    | object fs =>
      cases s with
      | index i => cases hu
      | key k => exact placeholdersKnown_object_iff.mp hv (k, u) (Fields.mem_of_get? hu)
    | _ => cases hu

end Json

/-- the path of a reference says what its root is -/
theorem Placeholder.of_path_eq {p : Placeholder} {n : String}
    (h : p.root.name ++ "." ++ p.path = "Parameters." ++ n) : p.root = .parameters ∧ p.path = n := by
  obtain ⟨root, path⟩ := p
  have chars := congrArg String.toList h
  simp only [String.toList_append] at chars
  cases root with
  | parameters => exact ⟨rfl, String.toList_inj.mp (List.append_cancel_left chars)⟩
  | steps => cases (List.cons.inj chars).1
  | execution => cases (List.cons.inj chars).1

/-- an object that refers to a parameter is written as it is, or the parameter is known -/
theorem Json.mem_of_mem_substitute {names : List String} {v : Json} {fs : List (String × Json)}
    {n : String} (hknown : v.PlaceholdersKnown names) (h : v.substitute = object fs)
    (hget : ("Get", string ("Parameters." ++ n)) ∈ fs) :
    (∃ gs, v = object gs ∧ ("Get", string ("Parameters." ++ n)) ∈ gs) ∨ n ∈ names := by
  cases v with
  | object gs =>
    rw [substitute, substituteFields_eq, object.injEq] at h
    rw [← h, List.mem_map] at hget
    obtain ⟨⟨k, w⟩, hg, hkw⟩ := hget
    obtain ⟨rfl, hw⟩ := Prod.mk.inj hkw
    obtain rfl : w = string ("Parameters." ++ n) := eq_string_of_substitute hw
    exact .inl ⟨gs, rfl, hg⟩
  | string s =>
    rw [substitute] at h
    cases hs : Placeholder.ofText? s with
    | none =>
      rw [hs] at h
      cases h
    | some p =>
      rw [hs] at h
      obtain rfl := object.inj h
      obtain ⟨-, hpath⟩ := Prod.mk.inj (List.mem_singleton.mp hget)
      obtain ⟨hroot, rfl⟩ := Placeholder.of_path_eq (string.inj hpath).symm
      have known := hknown s .here p (Placeholder.ofText?_iff.mp hs)
      rw [Placeholder.Known, hroot] at known
      exact .inr known
  | _ => cases h

namespace Configuration

/-- the object at that location of the definition is written so in the configuration -/
inductive WrittenAt (c : Configuration) : Location → List (String × Json) → Prop where
  | metadata {loc : Location} {fs : List (String × Json)}
      (h : (Json.object c.metadata).at? loc = some (.object fs)) :
      WrittenAt c (.key "Metadata" :: loc) fs
  | argument {i : Nat} {s : StepSpec} {loc : Location} {fs : List (String × Json)}
      (hs : c.steps[i]? = some s) (h : s.arguments.val.at? loc = some (.object fs)) :
      WrittenAt c (.key "Steps" :: .index i :: .key "Arguments" :: loc) fs

theorem at?_parameterName {c : Configuration} {n : String}
    (h : n ∈ c.parameters.map ParameterSpec.name) :
    ∃ i, c.document.at? [.key "Parameters", .index i, .key "Name"] = some (.string n) := by
  obtain ⟨q, hq, rfl⟩ := List.mem_map.mp h
  obtain ⟨i, hi⟩ := List.mem_iff_getElem?.mp hq
  refine ⟨i, ?_⟩
  show ((c.parameters.map ParameterSpec.fragment)[i]?.bind fun w => w.at? [.key "Name"]) = _
  rw [List.getElem?_map, hi]
  rfl

theorem part?_of_accepts {k : ValueKind} {v : Json} (h : k.accepts v = true) (s : Selector) :
    v.part? s = none := by
  cases v with
  | array xs => cases k <;> cases h
  | object fs => cases k <;> cases h
  | _ => rfl

/-- the entry of a parameter refers to nothing -/
theorem not_get_of_parameter {q : ParameterSpec}
    (hfit : ∀ v ∈ q.default?, q.kind.accepts v = true) {loc : Location}
    {fs : List (String × Json)} (h : q.fragment.at? loc = some (.object fs)) (v : Json) :
    ("Get", v) ∉ fs := by
  obtain ⟨name, kind, default?⟩ := q
  cases loc with
  | nil =>
    obtain rfl := Json.object.inj (Option.some_inj.mp h)
    cases default? <;> simp
  | cons s rest =>
    obtain ⟨u, hu, hrest⟩ := Option.bind_eq_some_iff.mp h
    have leaf : ∀ s, u.part? s = none := by
      cases s with
      | index i => cases hu
      | key k =>
        have field := Fields.mem_of_get? hu
        simp only [List.mem_append, List.mem_cons, Prod.mk.injEq, List.not_mem_nil, or_false,
          Option.mem_toList, Option.map_eq_some_iff] at field
        rcases field with (⟨-, rfl⟩ | ⟨-, rfl⟩) | ⟨v, hv, -, rfl⟩
        · exact fun _ => rfl
        · exact fun _ => rfl
        · exact part?_of_accepts (hfit v hv)
    obtain rfl := Json.at?_of_leaf leaf hrest
    intro hget
    exact Fields.get?_eq_none_iff.mp (leaf (.key "Get")) (List.mem_map.mpr ⟨_, hget, rfl⟩)

/-- an object in the entry of a step that refers to something is in the arguments -/
theorem exists_argument_of_get {s : StepSpec} {loc : Location} {fs : List (String × Json)}
    (h : s.fragment.at? loc = some (.object fs)) {v : Json} (hget : ("Get", v) ∈ fs) :
    ∃ rest u, loc = .key "Arguments" :: rest ∧ s.arguments.val.at? rest = some u ∧
      u.substitute = .object fs := by
  cases loc with
  | nil =>
    obtain rfl := Json.object.inj (Option.some_inj.mp h)
    simp at hget
  | cons t rest =>
    obtain ⟨w, hw, hrest⟩ := Option.bind_eq_some_iff.mp h
    cases t with
    | index i => cases hw
    | key k =>
      have field := Fields.mem_of_get? hw
      simp only [List.mem_cons, Prod.mk.injEq, List.not_mem_nil, or_false] at field
      rcases field with ⟨-, rfl⟩ | ⟨-, rfl⟩ | ⟨rfl, rfl⟩
      · cases Json.at?_of_leaf (fun _ => rfl) hrest
      · cases Json.at?_of_leaf (fun _ => rfl) hrest
      · obtain ⟨u, hu, hfs⟩ := Json.exists_of_at?_substitute hrest
        exact ⟨rest, u, rfl, hu, hfs⟩

/-- **A reference of the request to a parameter is written there, or the parameter is declared.** -/
theorem mem_parameters_of_get {c : Configuration} (hsound : c.Sound) {loc : Location}
    {fs : List (String × Json)} {n : String} (h : c.document.at? loc = some (.object fs))
    (hget : ("Get", .string ("Parameters." ++ n)) ∈ fs) :
    (∃ gs, c.WrittenAt loc gs ∧ ("Get", .string ("Parameters." ++ n)) ∈ gs) ∨
      n ∈ c.parameters.map ParameterSpec.name := by
  cases loc with
  | nil =>
    obtain rfl := Json.object.inj (Option.some_inj.mp h)
    simp at hget
  | cons t rest =>
    obtain ⟨w, hw, hrest⟩ := Option.bind_eq_some_iff.mp h
    cases t with
    | index i => cases hw
    | key k =>
      have field := Fields.mem_of_get? hw
      simp only [List.mem_cons, Prod.mk.injEq, List.not_mem_nil, or_false] at field
      rcases field with ⟨-, rfl⟩ | ⟨rfl, rfl⟩ | ⟨rfl, rfl⟩ | ⟨rfl, rfl⟩
      · cases Json.at?_of_leaf (fun _ => rfl) hrest
      · exact .inl ⟨fs, .metadata hrest, hget⟩
      · obtain ⟨i, _, rest', rfl, hx, hfs⟩ := Json.exists_item_of_at? hrest
        obtain ⟨q, hq, rfl⟩ := List.mem_map.mp (List.mem_of_getElem? hx)
        exact absurd hget (not_get_of_parameter (hsound.defaults_fit q hq) hfs _)
      · obtain ⟨i, _, rest', rfl, hx, hfs⟩ := Json.exists_item_of_at? hrest
        rw [List.getElem?_map] at hx
        obtain ⟨s, hs, rfl⟩ := Option.map_eq_some_iff.mp hx
        obtain ⟨inner, u, rfl, hu, hsub⟩ := exists_argument_of_get hfs hget
        have known := (hsound.placeholders_known s (List.mem_of_getElem? hs)).at? hu
        rcases Json.mem_of_mem_substitute known hsub hget with ⟨gs, rfl, hgs⟩ | hn
        · exact .inl ⟨gs, .argument hs hu, hgs⟩
        · exact .inr hn

/-- a pipeline has the parameters and the steps that are built of those of the configuration -/
theorem parts_of_build {c : Configuration} {p : Pipeline} (h : c.build = .ok p) :
    p.parameters = c.parameters.map ParameterSpec.parameter ∧
      List.Forall₂ (fun s t => s.build p.parameters = .ok t) c.steps p.steps := by
  obtain ⟨parameters, steps, hparameters, hsteps, hp⟩ := build_eq_ok.mp h
  obtain ⟨-, -, rfl⟩ := assemble_eq_ok.mp hp
  refine ⟨(ParameterSpec.forall₂_build_iff.mp hparameters).1, ?_⟩
  rw [Pipeline.steps, Entry.stepsOf_map_step]
  exact hsteps

/-- **No reference leads nowhere.** There are as many deferred values in the arguments of a step as
placeholders are written there, and each of them refers to a declared parameter, to an output of a
step or to a variable of the run. A reference to a parameter in the definition names one of the
parameters that the definition lists, unless it is written as an object in the configuration. -/
theorem references_grounded {c : Configuration} (h : c.check = .ok ()) :
    ∃ p, c.build = .ok p ∧
      List.Forall₂ (fun s t => t.arguments.deferreds.length = s.arguments.val.placeholders.length ∧
        ∀ d ∈ t.arguments.deferreds, d.Grounded p.parameters) c.steps p.steps ∧
      p.definition = c.document.wire ∧ Json.read? p.definition = some c.document ∧
      ∀ loc fs n, c.document.at? loc = some (.object fs) →
        ("Get", .string ("Parameters." ++ n)) ∈ fs →
          (∃ gs, c.WrittenAt loc gs ∧ ("Get", .string ("Parameters." ++ n)) ∈ gs) ∨
            ∃ i, c.document.at? [.key "Parameters", .index i, .key "Name"] = some (.string n) := by
  obtain ⟨p, hp⟩ := build_of_check h
  obtain ⟨hdefinition, hread⟩ := definition_eq_wire hp
  refine ⟨p, hp, ?_, hdefinition, hread, ?_⟩
  · refine (parts_of_build hp).2.imp ?_
    intro s t ht
    have targets := forall₂_target_deferreds (StepSpec.build_eq_ok.mp ht).2.2
    refine ⟨targets.length_eq.symm, ?_⟩
    intro d hd
    obtain ⟨q, hq⟩ := exists_forall₂_iff.mp ⟨_, targets.flip⟩ d hd
    exact Placeholder.grounded_target hq
  · intro loc fs n hloc hget
    rcases mem_parameters_of_get (sound_of_check h).1 hloc hget with written | hn
    · exact .inl written
    · exact .inr (at?_parameterName hn)

/-- a placeholder, and an object that looks like what a placeholder becomes -/
def mixedReferences : Configuration where
  name := "p"
  description? := none
  metadata := .ofPairs []
  parameters := [⟨"y", .string, none⟩, ⟨"x", .string, some ⟨.string "mid", rfl⟩⟩]
  steps := [⟨"s", "Training", ⟨.array [.object [("rate", .string "\x7b\x7b Parameters.x \x7d\x7d"),
    ("raw", .object [("Get", .string "Parameters.gone")])],
    .string "\x7b\x7b Steps.s.out \x7d\x7d"], by decide⟩⟩]

theorem references_grounded_mixed : ∃ p t, mixedReferences.build = .ok p ∧ p.steps = [t] ∧
    t.arguments.deferreds.length = 2 ∧ (∀ d ∈ t.arguments.deferreds, d.Grounded p.parameters) ∧
    (∃ i, mixedReferences.document.at? [.key "Parameters", .index i, .key "Name"] =
      some (.string "x")) ∧
    ∃ gs, mixedReferences.WrittenAt
      [.key "Steps", .index 0, .key "Arguments", .index 0, .key "raw"] gs := by
  obtain ⟨p, hp, hsteps, -, -, hget⟩ := references_grounded (c := mixedReferences) rfl
  obtain ⟨t, rest, ⟨hcount, hgrounded⟩, hrest, e⟩ := List.forall₂_cons_left_iff.mp hsteps
  obtain rfl := List.forall₂_nil_left_iff.mp hrest
  refine ⟨p, t, hp, e, hcount, hgrounded, ?_, ?_⟩
  · refine (hget [.key "Steps", .index 0, .key "Arguments", .index 0, .key "rate"]
      [("Get", .string "Parameters.x")] "x" rfl List.mem_cons_self).resolve_left ?_
    rintro ⟨gs, hwritten, -⟩
    generalize hloc : [Selector.key "Steps", .index 0, .key "Arguments", .index 0,
      .key "rate"] = loc at hwritten
    cases hwritten with
    | metadata => simp at hloc
    | argument hs h =>
      simp only [List.cons.injEq, Selector.index.injEq, true_and] at hloc
      obtain ⟨rfl, rfl⟩ := hloc
      obtain rfl := Option.some_inj.mp hs
      cases Option.some_inj.mp h
  · have raw := hget [.key "Steps", .index 0, .key "Arguments", .index 0, .key "raw"]
      [("Get", .string "Parameters.gone")] "gone" rfl List.mem_cons_self
    obtain ⟨gs, hwritten, -⟩ := raw.resolve_right (by
      rintro ⟨_ | _ | i, hi⟩
      · exact absurd (Json.string.inj (Option.some_inj.mp hi)) (by decide)
      · exact absurd (Json.string.inj (Option.some_inj.mp hi)) (by decide)
      · cases hi)
    exact ⟨gs, hwritten⟩

end Configuration

end Workflow
