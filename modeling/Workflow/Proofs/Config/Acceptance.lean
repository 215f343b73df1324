import Workflow.Proofs.Config.Building
import Workflow.Proofs.Config.Placeholder

/-!
# What is accepted

Names are looked at twice, before building and in building, and the rest of a configuration only in
building. What comes of it is one list of demands on a configuration: those that building makes, and
for the check that the names of the steps are distinct. So a configuration that passes the check can
be built, and one that can be built fails the check at most for a repeated step name.

* `Json.HasString`                        a string of the value at some depth, keys apart;
* `Placeholder.Known`                     the placeholder refers to something that is there;
* `exists_resolve_iff`                    arguments are resolved exactly if their placeholders are known;
* `Configuration.Sound`                   the demands of building;
* `Configuration.exists_build_iff`        building succeeds on sound configurations;
* `Configuration.nameError?_eq_none_iff`  what the check asks of names and kinds.
-/

namespace Workflow

/-! ## placeholders in arguments -/

/-- a string of the value at some depth; a key of an object is none -/
inductive Json.HasString : Json → String → Prop where
  | here {s : String} : HasString (string s) s
  | item {xs : List Json} {x : Json} {s : String} (hx : x ∈ xs) (h : HasString x s) :
      HasString (array xs) s
  | field {fs : List (String × Json)} {f : String × Json} {s : String} (hf : f ∈ fs)
      (h : HasString f.2 s) : HasString (object fs) s

/-- a declared parameter, a path into the output of any step or a variable of the run -/
def Placeholder.Known (names : List String) (p : Placeholder) : Prop :=
  match p.root with
  | .parameters => p.path ∈ names
  | .steps => True
  | .execution => p.path ∈ RunVariable.all.map RunVariable.name

theorem Placeholder.exists_target_iff {declared : List Parameter} {p : Placeholder} :
    (∃ t, p.target declared = .ok t) ↔ p.Known (declared.map Parameter.name) := by
  obtain ⟨root, path⟩ := p
  cases root with
  | parameters =>
    simp only [target, Known, List.mem_map]
    cases hq : declared.find? fun q => q.name == path with
    | none =>
      have undeclared : ∀ q ∈ declared, q.name ≠ path := by
        simpa using hq
      constructor
      · rintro ⟨t, ht⟩
        cases ht
      · rintro ⟨q, hmem, hname⟩
        exact absurd hname (undeclared q hmem)
    | some q =>
      have hname : q.name = path := by
        simpa using List.find?_some hq
      exact ⟨fun _ => ⟨q, List.mem_of_find?_eq_some hq, hname⟩, fun _ => ⟨.parameter q, rfl⟩⟩
  | steps => exact ⟨fun _ => trivial, fun _ => ⟨.property (.ofStep path), rfl⟩⟩
  | execution =>
    simp only [target, Known, List.mem_map]
    cases hv : RunVariable.ofName? path with
    | none =>
      constructor
      · rintro ⟨t, ht⟩
        cases ht
      · rintro ⟨v, -, hname⟩
        rw [RunVariable.ofName?_eq_some_iff.mpr hname] at hv
        cases hv
    | some v =>
      exact ⟨fun _ => ⟨v, RunVariable.mem_all v, RunVariable.ofName?_eq_some_iff.mp hv⟩,
        fun _ => ⟨.expression v.expression, rfl⟩⟩

/-- there are results of all items if there is one of each -/
theorem exists_forall₂_iff {α β : Type} {R : α → β → Prop} {xs : List α} :
    (∃ ys, List.Forall₂ R xs ys) ↔ ∀ x ∈ xs, ∃ y, R x y := by
  induction xs with
  | nil => exact ⟨fun _ => nofun, fun _ => ⟨[], .nil⟩⟩
  | cons x xs ih =>
    rw [List.forall_mem_cons, ← ih]
    constructor
    · rintro ⟨_, hx | ⟨hx, hxs⟩⟩
      exact ⟨⟨_, hx⟩, ⟨_, hxs⟩⟩
    · rintro ⟨⟨y, hy⟩, ys, hys⟩
      exact ⟨y :: ys, .cons hy hys⟩

theorem exists_resolveText_iff {declared : List Parameter} {s : String} :
    (∃ d, resolveText declared s = .ok d) ↔
      ∀ p : Placeholder, p.Spells s → p.Known (declared.map Parameter.name) := by
  constructor
  · rintro ⟨d, h⟩ p hp
    have hs := Placeholder.ofText?_iff.mpr hp
    rcases resolveText_eq_ok.mp h with ⟨hnone, -⟩ | ⟨q, t, hq, ht, -⟩
    · exact absurd (hs.symm.trans hnone) nofun
    · obtain rfl := Option.some_inj.mp (hs.symm.trans hq)
      exact Placeholder.exists_target_iff.mp ⟨t, ht⟩
  · intro h
    cases hs : Placeholder.ofText? s with
    | none => exact ⟨.string s, resolveText_eq_ok.mpr (.inl ⟨hs, rfl⟩)⟩
    | some p =>
      obtain ⟨t, ht⟩ := Placeholder.exists_target_iff.mpr (h p (Placeholder.ofText?_iff.mp hs))
      exact ⟨.deferred t, resolveText_eq_ok.mpr (.inr ⟨p, t, hs, ht, rfl⟩)⟩

/-- every placeholder at any depth of the value is known -/
def Json.PlaceholdersKnown (names : List String) (v : Json) : Prop :=
  ∀ s, v.HasString s → ∀ p : Placeholder, p.Spells s → p.Known names

theorem Json.placeholdersKnown_array_iff {names : List String} {xs : List Json} :
    (array xs).PlaceholdersKnown names ↔ ∀ x ∈ xs, x.PlaceholdersKnown names := by
  constructor
  · intro h x hx s hs
    exact h s (.item hx hs)
  · rintro h s (_ | ⟨hx, hs⟩)
    exact h _ hx s hs

theorem Json.placeholdersKnown_object_iff {names : List String} {fs : List (String × Json)} :
    (object fs).PlaceholdersKnown names ↔ ∀ f ∈ fs, f.2.PlaceholdersKnown names := by
  constructor
  · intro h f hf s hs
    exact h s (.field hf hs)
  · rintro h s (_ | _ | ⟨hf, hs⟩)
    exact h _ hf s hs

theorem exists_resolve_array_iff {declared : List Parameter} {xs : List Json} :
    (∃ d, resolve declared (.array xs) = .ok d) ↔ ∀ x ∈ xs, ∃ d, resolve declared x = .ok d := by
  rw [← exists_forall₂_iff]
  constructor
  · rintro ⟨d, h⟩
    obtain ⟨ds, hds, -⟩ := resolve_array_eq_ok.mp h
    exact ⟨ds, hds⟩
  · rintro ⟨ds, hds⟩
    exact ⟨.list ds, resolve_array_eq_ok.mpr ⟨ds, hds, rfl⟩⟩

theorem exists_resolve_object_iff {declared : List Parameter} {fs : List (String × Json)} :
    (∃ d, resolve declared (.object fs) = .ok d) ↔
      ∀ f ∈ fs, ∃ d, resolve declared f.2 = .ok d := by
  constructor
  · rintro ⟨d, h⟩ f hf
    obtain ⟨gs, hgs, -⟩ := resolve_object_eq_ok.mp h
    obtain ⟨g, -, hg⟩ := exists_forall₂_iff.mp ⟨gs, hgs⟩ f hf
    exact ⟨g.2, hg⟩
  · intro h
    have fields : ∀ f ∈ fs, ∃ g : String × Document,
        g.1 = f.1 ∧ resolve declared f.2 = .ok g.2 := by
      intro f hf
      obtain ⟨d, hd⟩ := h f hf
      exact ⟨(f.1, d), rfl, hd⟩
    obtain ⟨gs, hgs⟩ := exists_forall₂_iff.mpr fields
    exact ⟨.object gs, resolve_object_eq_ok.mpr ⟨gs, hgs, rfl⟩⟩

/-- **A value is resolved exactly if its placeholders are known.** -/
theorem exists_resolve_iff {declared : List Parameter} {v : Json} :
    (∃ d, resolve declared v = .ok d) ↔ v.PlaceholdersKnown (declared.map Parameter.name) := by
  induction v using Json.induct with
  | string s =>
    rw [resolve, exists_resolveText_iff]
    constructor
    · rintro h _ ⟨⟩
      exact h
    · intro h
      exact h s .here
  | array xs ih =>
    rw [exists_resolve_array_iff, Json.placeholdersKnown_array_iff]
    exact forall₂_congr ih
  | object fs ih =>
    rw [exists_resolve_object_iff, Json.placeholdersKnown_object_iff]
    exact forall₂_congr ih
  | _ =>
    refine ⟨?_, fun _ => ⟨_, rfl⟩⟩
    intro _ s hs
    cases hs

/-! ## parameters and steps -/

/-- the parameters that are built are those that are written there -/
theorem ParameterSpec.forall₂_build_iff {ps : List ParameterSpec} {qs : List Parameter} :
    List.Forall₂ (fun p q => p.build = .ok q) ps qs ↔
      qs = ps.map ParameterSpec.parameter ∧ ∀ p ∈ ps, p.parameter.Proper := by
  simp only [ParameterSpec.build_eq_ok]
  induction ps generalizing qs with
  | nil => simp
  | cons p ps ih =>
    rw [List.forall₂_cons_left_iff, List.map_cons, List.forall_mem_cons]
    simp only [ih]
    constructor
    · rintro ⟨q, qs, ⟨rfl, hp⟩, ⟨rfl, hps⟩, rfl⟩
      exact ⟨rfl, hp, hps⟩
    · rintro ⟨rfl, hp, hps⟩
      exact ⟨_, _, ⟨rfl, hp⟩, ⟨rfl, hps⟩, rfl⟩

theorem StepSpec.exists_build_iff {declared : List Parameter} {s : StepSpec} :
    (∃ t, s.build declared = .ok t) ↔ s.kind ∈ StepKind.all.map StepKind.name ∧
      s.arguments.val.PlaceholdersKnown (declared.map Parameter.name) := by
  simp only [StepSpec.build_eq_ok, ← exists_resolve_iff, List.mem_map]
  constructor
  · rintro ⟨t, -, hkind, harguments⟩
    exact ⟨⟨t.kind, StepKind.mem_all t.kind, hkind⟩, ⟨t.arguments, harguments⟩⟩
  · rintro ⟨⟨kind, -, hkind⟩, ⟨arguments, harguments⟩⟩
    exact ⟨⟨s.name, kind, arguments⟩, rfl, hkind, harguments⟩

namespace Configuration

/-! ## names and kinds -/

theorem stepError?_eq_none_iff {seen : List String} {ss : List StepSpec} :
    stepError? seen ss = none ↔
      Pipeline.repeatedName? seen (ss.map StepSpec.name) = none ∧
        ∀ s ∈ ss, s.kind ∈ StepKind.all.map StepKind.name := by
  induction ss generalizing seen with
  | nil => simp [stepError?, Pipeline.repeatedName?]
  | cons s ss ih =>
    rw [stepError?, List.map_cons, Pipeline.repeatedName?, List.forall_mem_cons]
    by_cases hname : s.name ∈ seen
    · simp [hname]
    · rw [if_neg hname, if_neg hname]
      have unknown : (StepKind.ofName? s.kind).isNone = true ↔
          s.kind ∉ StepKind.all.map StepKind.name := by
        rw [Option.isNone_iff_eq_none, StepKind.ofName?_eq_none_iff]
      by_cases hkind : s.kind ∈ StepKind.all.map StepKind.name
      · rw [if_neg fun h => unknown.mp h hkind, ih]
        exact and_congr_right fun _ => (and_iff_right hkind).symm
      · rw [if_pos (unknown.mpr hkind)]
        simp [hkind]

theorem nameError?_eq_none_iff {c : Configuration} :
    c.nameError? = none ↔ Text.isBlank c.name = false ∧
      (c.parameters.map ParameterSpec.name).Nodup ∧ (c.steps.map StepSpec.name).Nodup ∧
        ∀ s ∈ c.steps, s.kind ∈ StepKind.all.map StepKind.name := by
  rw [nameError?, ← Pipeline.repeatedName?_nil_eq_none_iff, ← Pipeline.repeatedName?_nil_eq_none_iff,
    ← stepError?_eq_none_iff]
  cases Text.isBlank c.name with
  | true => simp
  | false =>
    rw [if_neg Bool.false_ne_true]
    cases Pipeline.repeatedName? [] (c.parameters.map ParameterSpec.name) <;> simp

/-! ## building -/

/-- what a configuration has to be like for a pipeline to be built of it -/
structure Sound (c : Configuration) : Prop where
  name_not_blank : Text.isBlank c.name = false
  parameters_distinct : (c.parameters.map ParameterSpec.name).Nodup
  parameters_not_blank : ∀ p ∈ c.parameters, Text.isBlank p.name = false
  defaults_fit : ∀ p ∈ c.parameters, ∀ v ∈ p.default?, p.kind.accepts v = true
  kinds_known : ∀ s ∈ c.steps, s.kind ∈ StepKind.all.map StepKind.name
  placeholders_known : ∀ s ∈ c.steps,
    s.arguments.val.PlaceholdersKnown (c.parameters.map ParameterSpec.name)

/-- **A pipeline is built exactly of the sound configurations.** -/
theorem exists_build_iff {c : Configuration} : (∃ p, c.build = .ok p) ↔ c.Sound := by
  have names : (c.parameters.map ParameterSpec.parameter).map Parameter.name =
      c.parameters.map ParameterSpec.name := by
    rw [List.map_map]
    rfl
  simp only [build_eq_ok, assemble_eq_ok, ParameterSpec.forall₂_build_iff]
  constructor
  · rintro ⟨p, parameters, steps, ⟨rfl, hproper⟩, hsteps, hblank, hdistinct, -⟩
    rw [names, Pipeline.repeatedName?_nil_eq_none_iff] at hdistinct
    have each := exists_forall₂_iff.mp ⟨steps, hsteps⟩
    simp only [StepSpec.exists_build_iff, names] at each
    exact {
      name_not_blank := hblank
      parameters_distinct := hdistinct
      parameters_not_blank := fun p hp => (ParameterSpec.proper_parameter_iff.mp (hproper p hp)).1
      defaults_fit := fun p hp => (ParameterSpec.proper_parameter_iff.mp (hproper p hp)).2
      kinds_known := fun s hs => (each s hs).1
      placeholders_known := fun s hs => (each s hs).2 }
  · intro h
    have each : ∀ s ∈ c.steps,
        ∃ t, s.build (c.parameters.map ParameterSpec.parameter) = .ok t := by
      intro s hs
      rw [StepSpec.exists_build_iff, names]
      exact ⟨h.kinds_known s hs, h.placeholders_known s hs⟩
    obtain ⟨steps, hsteps⟩ := exists_forall₂_iff.mpr each
    refine ⟨_, _, steps, ⟨rfl, ?_⟩, hsteps, h.name_not_blank, ?_, rfl⟩
    · intro p hp
      exact ParameterSpec.proper_parameter_iff.mpr
        ⟨h.parameters_not_blank p hp, h.defaults_fit p hp⟩
    · rw [names, Pipeline.repeatedName?_nil_eq_none_iff]
      exact h.parameters_distinct

theorem check_eq_ok_iff {c : Configuration} :
    c.check = .ok () ↔ c.nameError? = none ∧ ∃ p, c.build = .ok p := by
  rw [check]
  cases c.nameError? with
  | some e => simp
  | none => cases c.build <;> simp

/-- **The check accepts exactly the sound configurations in which no step name is repeated, and
building also takes those with a repeated step name**; so what passes the check is built. -/
theorem accepts_exactly (c : Configuration) :
    (c.check = .ok () ↔ c.Sound ∧ (c.steps.map StepSpec.name).Nodup) ∧
      ((∃ p, c.build = .ok p) ↔
        c.check = .ok () ∨ c.Sound ∧ ¬ (c.steps.map StepSpec.name).Nodup) ∧
      (c.check = .ok () → ∃ p, c.build = .ok p) := by
  have accepted : c.check = .ok () ↔ c.Sound ∧ (c.steps.map StepSpec.name).Nodup := by
    rw [check_eq_ok_iff, exists_build_iff, nameError?_eq_none_iff]
    constructor
    · rintro ⟨⟨-, -, hsteps, -⟩, hsound⟩
      exact ⟨hsound, hsteps⟩
    · rintro ⟨hsound, hsteps⟩
      exact ⟨⟨hsound.name_not_blank, hsound.parameters_distinct, hsteps, hsound.kinds_known⟩,
        hsound⟩
  refine ⟨accepted, ?_, build_of_check⟩
  rw [exists_build_iff, accepted, ← and_or_left]
  exact (and_iff_left (Classical.em _)).symm

/-- two steps, the first of them `s`, with placeholders of every root -/
def twoSteps (second : String) : Configuration where
  name := "p"
  description? := none
  metadata := .ofPairs []
  parameters := [⟨"x", .float, some ⟨.number (.integer 1 (by decide)), rfl⟩⟩]
  steps := [⟨"s", "Training", ⟨.array [.string "\x7b\x7b Parameters.x \x7d\x7d",
      .object [("run", .string "\x7b\x7bExecution.PipelineArn\x7d\x7d")]], by decide⟩⟩,
    ⟨second, "Condition", ⟨.string "\x7b\x7b Steps.none.out \x7d\x7d", rfl⟩⟩]

theorem accepts_twoSteps : (∃ p, (twoSteps "t").build = .ok p) ∧ (twoSteps "t").Sound ∧
    (twoSteps "s").Sound ∧ (twoSteps "s").check ≠ .ok () := by
  have distinct := accepts_exactly (twoSteps "t")
  have repeated := accepts_exactly (twoSteps "s")
  have fails : (twoSteps "s").check ≠ .ok () := by
    intro h
    exact absurd (repeated.1.mp h).2 (by decide)
  refine ⟨distinct.2.2 rfl, (distinct.1.mp rfl).1, ?_, fails⟩
  exact ((repeated.2.1.mp ⟨_, rfl⟩).resolve_left fails).1

end Configuration

end Workflow
