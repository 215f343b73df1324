import Mathlib.Data.List.Forall2
import Workflow.Config.Build
import Workflow.Pipeline.Keyed

/-!
# What building succeeds on

Building goes through parameters, steps and arguments in order and stops at the first refusal. Each
of these traversals succeeds exactly if it succeeds on every item, and then its result is the list
of the results; the pipeline that is built is put together from nothing else.

* `Except.traverse_eq_ok`             the law of such a traversal;
* `resolve_array_eq_ok`, ...          what the value of a string, an array and an object is;
* `ParameterSpec.build_eq_ok`         a parameter is built if its name and its default are allowed;
* `Configuration.build_eq_ok`         what the pipeline consists of;
* `Configuration.build_of_check`      what passes the check is built;
* `Configuration.wellKeyed_of_build`  of maps a pipeline of maps is built.
-/

namespace Workflow

/-- a function that goes through a list and stops at the first error -/
theorem Except.traverse_eq_ok {α β ε : Type} {f : α → Except ε β}
    {g : List α → Except ε (List β)} (hnil : g [] = .ok [])
    (hcons : ∀ x xs, g (x :: xs) = match f x with
      | .error e => .error e
      | .ok y =>
        match g xs with
        | .error e => .error e
        | .ok ys => .ok (y :: ys))
    {xs : List α} {ys : List β} :
    g xs = .ok ys ↔ List.Forall₂ (fun x y => f x = .ok y) xs ys := by
  induction xs generalizing ys with
  | nil =>
    rw [hnil, List.forall₂_nil_left_iff, Except.ok.injEq]
    exact eq_comm
  | cons x xs ih =>
    rw [hcons, List.forall₂_cons_left_iff]
    cases hx : f x with
    | error e => simp
    | ok y =>
      cases hxs : g xs with
      | error e =>
        have none : ∀ zs, ¬ List.Forall₂ (fun x y => f x = .ok y) xs zs := by
          intro zs hzs
          exact absurd (hxs.symm.trans (ih.mpr hzs)) nofun
        simp [none]
      | ok zs =>
        have all := ih.mp hxs
        constructor
        · intro h
          exact ⟨y, zs, rfl, all, (Except.ok.inj h).symm⟩
        · rintro ⟨y', zs', hy, hzs, rfl⟩
          rw [Except.ok.inj hy, Except.ok.inj (hxs.symm.trans (ih.mpr hzs))]

/-- what is read off the results item by item is read off the items -/
theorem map_eq_map_of_forall₂ {α β γ : Type} {R : α → β → Prop} {f : α → γ} {g : β → γ}
    {xs : List α} {ys : List β} (h : List.Forall₂ R xs ys)
    (hfg : ∀ x ∈ xs, ∀ y, R x y → g y = f x) : ys.map g = xs.map f := by
  induction h with
  | nil => rfl
  | cons hxy _ ih =>
    rw [List.map_cons, List.map_cons, hfg _ List.mem_cons_self _ hxy]
    rw [ih fun x hx => hfg x (List.mem_cons_of_mem _ hx)]

/-- every result is the result of an item -/
theorem forall_mem_of_forall₂ {α β : Type} {R : α → β → Prop} {P : β → Prop} {xs : List α}
    {ys : List β} (h : List.Forall₂ R xs ys) (hR : ∀ x ∈ xs, ∀ y, R x y → P y) : ∀ y ∈ ys, P y := by
  induction h with
  | nil => exact List.forall_mem_nil _
  | cons hxy _ ih =>
    rw [List.forall_mem_cons]
    exact ⟨hR _ List.mem_cons_self _ hxy, ih fun x hx => hR x (List.mem_cons_of_mem _ hx)⟩

/-! ## arguments -/

theorem resolveItems_eq_ok {declared : List Parameter} {xs : List Json} {ds : List Document} :
    resolveItems declared xs = .ok ds ↔
      List.Forall₂ (fun x d => resolve declared x = .ok d) xs ds := by
  apply Except.traverse_eq_ok (g := resolveItems declared) rfl
  intro x xs
  rw [resolveItems]
  cases resolve declared x with
  | error e => rfl
  | ok d => cases resolveItems declared xs <;> rfl

theorem resolveFields_eq_ok {declared : List Parameter} {fs : List (String × Json)}
    {gs : List (String × Document)} :
    resolveFields declared fs = .ok gs ↔
      List.Forall₂ (fun f g => g.1 = f.1 ∧ resolve declared f.2 = .ok g.2) fs gs := by
  have pairs : resolveFields declared fs = .ok gs ↔
      List.Forall₂ (fun f g => (resolve declared f.2).map (f.1, ·) = .ok g) fs gs := by
    apply Except.traverse_eq_ok (f := fun f => (resolve declared f.2).map (f.1, ·))
      (g := resolveFields declared) rfl
    intro f fs
    rw [resolveFields]
    cases resolve declared f.2 with
    | error e => rfl
    | ok d => cases resolveFields declared fs <;> rfl
  have field : ∀ (f : String × Json) (g : String × Document),
      (resolve declared f.2).map (f.1, ·) = .ok g ↔ g.1 = f.1 ∧ resolve declared f.2 = .ok g.2 := by
    rintro ⟨k, v⟩ ⟨l, d⟩
    cases resolve declared v with
    | error e => simp [Except.map]
    | ok d' => simp [Except.map, eq_comm]
  rw [pairs]
  simp only [field]

theorem resolveText_eq_ok {declared : List Parameter} {s : String} {d : Document} :
    resolveText declared s = .ok d ↔
      (Placeholder.ofText? s = none ∧ d = .string s) ∨
        ∃ p t, Placeholder.ofText? s = some p ∧ p.target declared = .ok t ∧ d = .deferred t := by
  rw [resolveText]
  cases Placeholder.ofText? s with
  | none => simp [eq_comm]
  | some p =>
    cases ht : p.target declared with
    | error e => simp [ht]
    | ok t => simp [ht, eq_comm]

theorem resolve_array_eq_ok {declared : List Parameter} {xs : List Json} {d : Document} :
    resolve declared (.array xs) = .ok d ↔
      ∃ ds, List.Forall₂ (fun x d => resolve declared x = .ok d) xs ds ∧ d = .list ds := by
  rw [resolve]
  simp only [← resolveItems_eq_ok]
  cases resolveItems declared xs with
  | error e => simp
  | ok ds => simp [eq_comm]

theorem resolve_object_eq_ok {declared : List Parameter} {fs : List (String × Json)}
    {d : Document} :
    resolve declared (.object fs) = .ok d ↔
      ∃ gs, List.Forall₂ (fun f g => g.1 = f.1 ∧ resolve declared f.2 = .ok g.2) fs gs ∧
        d = .object gs := by
  rw [resolve]
  simp only [← resolveFields_eq_ok]
  cases resolveFields declared fs with
  | error e => simp
  | ok gs => simp [eq_comm]

/-! ## parameters and steps -/

/-- the parameter that is written there -/
def ParameterSpec.parameter (p : ParameterSpec) : Parameter :=
  ⟨p.name, p.kind, p.default?.map Subtype.val⟩

theorem ParameterSpec.proper_parameter_iff {p : ParameterSpec} : p.parameter.Proper ↔
    Text.isBlank p.name = false ∧ ∀ v ∈ p.default?, p.kind.accepts v = true := by
  constructor
  · intro h
    exact ⟨h.name_not_blank, fun v hv => h.default_fits v (Option.mem_map_of_mem _ hv)⟩
  · rintro ⟨hname, hfits⟩
    refine ⟨hname, ?_⟩
    intro w hw
    obtain ⟨v, hv, rfl⟩ := Option.map_eq_some_iff.mp hw
    exact hfits v hv

/-- a parameter is built exactly if its name is not blank and its default is of its kind -/
theorem ParameterSpec.build_eq_ok {p : ParameterSpec} {q : Parameter} :
    p.build = .ok q ↔ q = p.parameter ∧ q.Proper := by
  obtain ⟨name, kind, default?⟩ := p
  cases default? with
  | none =>
    have plain : build ⟨name, kind, none⟩ = Parameter.declare name kind := by
      rw [build]
      cases Parameter.declare name kind <;> rfl
    rw [plain]
    constructor
    · intro h
      exact ⟨(Parameter.declare_eq_ok.mp h).2, Parameter.proper_of_declare h⟩
    · rintro ⟨rfl, hq⟩
      exact Parameter.declare_eq_ok.mpr ⟨hq.name_not_blank, rfl⟩
  | some v =>
    have default : build ⟨name, kind, some v⟩ = .ok q ↔
        ∃ r, Parameter.declare name kind = .ok r ∧ r.withDefault v = .ok q := by
      rw [build]
      cases Parameter.declare name kind <;> simp
    rw [default]
    constructor
    · rintro ⟨r, hr, hq⟩
      have proper := Parameter.proper_of_withDefault (Parameter.proper_of_declare hr) hq
      obtain ⟨-, rfl⟩ := Parameter.declare_eq_ok.mp hr
      exact ⟨(Parameter.withDefault_eq_ok.mp hq).2, proper⟩
    · rintro ⟨rfl, hq⟩
      refine ⟨⟨name, kind, none⟩, ?_, ?_⟩
      · exact Parameter.declare_eq_ok.mpr ⟨hq.name_not_blank, rfl⟩
      · exact Parameter.withDefault_eq_ok.mpr ⟨hq.default_fits v rfl, rfl⟩

theorem StepSpec.build_eq_ok {declared : List Parameter} {s : StepSpec} {t : Step} :
    s.build declared = .ok t ↔
      t.name = s.name ∧ t.kind.name = s.kind ∧ resolve declared s.arguments = .ok t.arguments := by
  obtain ⟨name, kind, arguments⟩ := t
  rw [build]
  cases hk : StepKind.ofName? s.kind with
  | none =>
    have unknown : kind.name ≠ s.kind := by
      intro e
      exact absurd (hk.symm.trans (StepKind.ofName?_eq_some_iff.mpr e)) nofun
    simp [unknown]
  | some k =>
    have known : kind.name = s.kind ↔ k = kind := by
      rw [← StepKind.ofName?_eq_some_iff, hk, Option.some_inj]
    rw [known]
    cases resolve declared s.arguments with
    | error e => simp
    | ok d => simp [eq_comm]

namespace Configuration

theorem buildParameters_eq_ok {ps : List ParameterSpec} {qs : List Parameter} :
    buildParameters ps = .ok qs ↔ List.Forall₂ (fun p q => p.build = .ok q) ps qs := by
  apply Except.traverse_eq_ok (g := buildParameters) rfl
  intro p ps
  rw [buildParameters]
  cases p.build with
  | error e => rfl
  | ok q => cases buildParameters ps <;> rfl

theorem buildSteps_eq_ok {declared : List Parameter} {ss : List StepSpec} {ts : List Step} :
    buildSteps declared ss = .ok ts ↔ List.Forall₂ (fun s t => s.build declared = .ok t) ss ts := by
  apply Except.traverse_eq_ok (g := buildSteps declared) rfl
  intro s ss
  rw [buildSteps]
  cases s.build declared with
  | error e => rfl
  | ok t => cases buildSteps declared ss <;> rfl

theorem assemble_eq_ok {c : Configuration} {parameters : List Parameter} {steps : List Step}
    {p : Pipeline} :
    c.assemble parameters steps = .ok p ↔ Text.isBlank c.name = false ∧
      Pipeline.repeatedName? [] (parameters.map Parameter.name) = none ∧
      p = ⟨c.name, parameters, steps.map .step, Document.ofJsonFields c.metadata⟩ := by
  rw [assemble, Pipeline.empty]
  cases Text.isBlank c.name with
  | true => simp
  | false =>
    rw [if_neg Bool.false_ne_true]
    simp only [Pipeline.withParameters]
    cases Pipeline.repeatedName? [] (parameters.map Parameter.name) with
    | some n => simp
    | none =>
      show Except.ok _ = Except.ok p ↔ _
      rw [Except.ok.injEq]
      exact ⟨fun e => ⟨trivial, rfl, e.symm⟩, fun e => e.2.2.symm⟩

/-- **The pipeline that is built consists of what is built of the parts.** -/
theorem build_eq_ok {c : Configuration} {p : Pipeline} :
    c.build = .ok p ↔ ∃ parameters steps,
      List.Forall₂ (fun s q => s.build = .ok q) c.parameters parameters ∧
      List.Forall₂ (fun s t => s.build parameters = .ok t) c.steps steps ∧
      c.assemble parameters steps = .ok p := by
  rw [build]
  constructor
  · intro h
    cases hps : buildParameters c.parameters with
    | error e => simp [hps] at h
    | ok parameters =>
      cases hss : buildSteps parameters c.steps with
      | error e => simp [hps, hss] at h
      | ok steps =>
        cases hp : c.assemble parameters steps with
        | error e => simp [hps, hss, hp] at h
        | ok p' =>
          simp only [hps, hss, hp] at h
          obtain rfl := Except.ok.inj h
          exact ⟨parameters, steps, buildParameters_eq_ok.mp hps, buildSteps_eq_ok.mp hss, hp⟩
  · rintro ⟨parameters, steps, hps, hss, hp⟩
    rw [buildParameters_eq_ok.mpr hps]
    simp only [buildSteps_eq_ok.mpr hss, hp]

theorem build_of_check {c : Configuration} (h : c.check = .ok ()) : ∃ p, c.build = .ok p := by
  rw [check] at h
  split at h
  · cases h
  · cases hb : c.build with
    | error e =>
      rw [hb] at h
      cases h
    | ok p => exact ⟨p, rfl⟩

end Configuration

/-! ## what is built of maps -/

/-- a placeholder stands for a declared parameter or for a reference with one key -/
theorem Placeholder.wellKeyed_target {declared : List Parameter}
    (hdeclared : ∀ q ∈ declared, q.wellKeyed = true) {p : Placeholder} {t : Deferred}
    (h : p.target declared = .ok t) : t.wellKeyed = true := by
  obtain ⟨root, path⟩ := p
  cases root with
  | parameters =>
    simp only [target] at h
    cases hq : declared.find? fun q => q.name == path with
    | none => simp [hq] at h
    | some q =>
      rw [hq] at h
      obtain rfl := Except.ok.inj h
      exact hdeclared q (List.mem_of_find?_eq_some hq)
  | steps =>
    obtain rfl := Except.ok.inj h
    rfl
  | execution =>
    simp only [target] at h
    cases hv : RunVariable.ofName? path with
    | none => simp [hv] at h
    | some v =>
      rw [hv] at h
      obtain rfl := Except.ok.inj h
      rfl

theorem keyedThroughout_resolve {declared : List Parameter}
    (hdeclared : ∀ q ∈ declared, q.wellKeyed = true) {v : Json} (hv : v.wellKeyed = true)
    {d : Document} (h : resolve declared v = .ok d) : d.keyedThroughout = true := by
  induction v using Json.induct generalizing d with
  | string s =>
    obtain ⟨-, rfl⟩ | ⟨p, t, -, ht, rfl⟩ := resolveText_eq_ok.mp h
    · rfl
    · exact Placeholder.wellKeyed_target hdeclared ht
  | array xs ih =>
    obtain ⟨ds, hds, rfl⟩ := resolve_array_eq_ok.mp h
    rw [Json.wellKeyed_array_iff] at hv
    exact Document.keyedThroughout_sequence_iff.mpr
      (forall_mem_of_forall₂ hds fun x hx d hd => ih x hx (hv x hx) hd)
  | object fs ih =>
    obtain ⟨gs, hgs, rfl⟩ := resolve_object_eq_ok.mp h
    rw [Json.wellKeyed_object_iff] at hv
    have hkeys : Fields.keys gs = Fields.keys fs :=
      map_eq_map_of_forall₂ hgs fun f _ g hfg => hfg.1
    rw [Document.keyedThroughout_object_iff, hkeys]
    exact ⟨hv.1, forall_mem_of_forall₂ hgs fun f hf g hfg => ih f hf (hv.2 f hf) hfg.2⟩
  | _ =>
    obtain rfl := Except.ok.inj h
    rfl

/-- **What is built of a configuration has no key twice**, as the configuration has none. -/
theorem Configuration.wellKeyed_of_build {c : Configuration} {p : Pipeline} (h : c.build = .ok p) :
    p.WellKeyed := by
  obtain ⟨parameters, steps, hparameters, hsteps, hassembled⟩ := build_eq_ok.mp h
  obtain ⟨-, -, rfl⟩ := assemble_eq_ok.mp hassembled
  have defaults : ∀ q ∈ parameters, q.wellKeyed = true := by
    refine forall_mem_of_forall₂ hparameters ?_
    intro s _ q hq
    obtain ⟨rfl, -⟩ := ParameterSpec.build_eq_ok.mp hq
    rw [Parameter.wellKeyed_iff]
    intro v hv
    obtain ⟨w, -, rfl⟩ := Option.map_eq_some_iff.mp hv
    exact w.property
  have arguments : ∀ t ∈ steps, t.arguments.keyedThroughout = true := by
    refine forall_mem_of_forall₂ hsteps ?_
    intro s _ t ht
    exact keyedThroughout_resolve defaults s.arguments.property (StepSpec.build_eq_ok.mp ht).2.2
  refine ⟨Document.keyedThroughout_ofJson c.metadata.property, defaults, ?_⟩
  show ∀ t ∈ Entry.stepsOf (steps.map .step), t.arguments.keyedThroughout = true
  rw [Entry.stepsOf_map_step]
  exact arguments

end Workflow
