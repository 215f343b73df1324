import Workflow.Proofs.Config.Recognition
import Workflow.Proofs.Config.Reference

/-!
# The first reference that dangles

A placeholder dangles if it names a parameter that is not declared or a variable that no run has.
Arguments are gone through in document order and steps in their order, and the first failure ends
it. So what is reported is the first dangling placeholder of the first step that has one, whatever
dangles after it; and where none dangles, nothing is refused.

* `Placeholder.Dangles`          nothing is there for the placeholder, and what is said of it;
* `errorOf?`                     the error of a result;
* `errorOf?_resolve`             a value fails as the first of its placeholders that fails;
* `Configuration.errorOf?_buildSteps`       steps fail as the first of them that fails;
* `Json.Literal`                 no string of the value is a placeholder;
* `isPlain_iff_literal`          what is resolved is plain exactly if it was literal;
* `Configuration.first_dangling_reported`   when steps are refused, and what for.
-/

namespace Workflow

/-! ## dangling placeholders -/

/-- the placeholder names something that is not there -/
inductive Placeholder.Dangles (declared : List Parameter) :
    Placeholder → ReferenceError → Prop where
  | undeclared {path : String} (h : path ∉ declared.map Parameter.name) :
      Dangles declared ⟨.parameters, path⟩ (.undeclaredParameter path)
  | unknown {path : String} (h : path ∉ RunVariable.all.map RunVariable.name) :
      Dangles declared ⟨.execution, path⟩ (.unknownVariable path)

namespace Placeholder

variable {declared : List Parameter} {p : Placeholder}

/-- a placeholder stands for nothing exactly if it dangles -/
theorem target_eq_error_iff {e : ReferenceError} :
    p.target declared = .error e ↔ p.Dangles declared e := by
  obtain ⟨root, path⟩ := p
  cases root with
  | parameters =>
    simp only [target]
    cases hq : declared.find? fun q => q.name == path with
    | none =>
      have missing : path ∉ declared.map Parameter.name := by
        simpa using hq
      constructor
      · rintro ⟨⟩
        exact .undeclared missing
      · rintro ⟨⟩
        rfl
    | some q =>
      have found : path ∈ declared.map Parameter.name := by
        refine List.mem_map.mpr ⟨q, List.mem_of_find?_eq_some hq, ?_⟩
        simpa using List.find?_some hq
      constructor
      · rintro ⟨⟩
      · rintro ⟨missing⟩
        exact absurd found missing
  | steps =>
    constructor
    · rintro ⟨⟩
    · rintro ⟨⟩
  | execution =>
    simp only [target]
    cases hv : RunVariable.ofName? path with
    | none =>
      have missing : path ∉ RunVariable.all.map RunVariable.name := by
        simpa [RunVariable.ofName?] using hv
      constructor
      · rintro ⟨⟩
        exact .unknown missing
      · rintro ⟨⟩
        rfl
    | some v =>
      have found : path ∈ RunVariable.all.map RunVariable.name :=
        List.mem_map.mpr ⟨v, RunVariable.mem_all v, RunVariable.ofName?_eq_some_iff.mp hv⟩
      constructor
      · rintro ⟨⟩
      · rintro ⟨⟩
        contradiction

theorem exists_dangles_iff :
    (∃ e, p.Dangles declared e) ↔ ¬ p.Known (declared.map Parameter.name) := by
  simp only [← target_eq_error_iff, ← exists_target_iff]
  cases p.target declared <;> simp

end Placeholder

/-! ## the first failure -/

/-- the error of a result, if it is one -/
def errorOf? {ε α : Type} : Except ε α → Option ε
  | .ok _ => none
  | .error e => some e

theorem errorOf?_eq_some_iff {ε α : Type} {r : Except ε α} {e : ε} :
    errorOf? r = some e ↔ r = .error e := by
  cases r <;> simp [errorOf?]

/-- why nothing stands for the placeholder, if so -/
def Placeholder.failure? (declared : List Parameter) (p : Placeholder) : Option ReferenceError :=
  errorOf? (p.target declared)

variable {declared : List Parameter}

mutual

/-- **A value fails as the first of its placeholders that fails**, in document order. -/
theorem errorOf?_resolve (v : Json) : errorOf? (resolve declared v) =
    v.placeholders.findSome? (Placeholder.failure? declared) := by
  cases v with
  | string s =>
    rw [resolve, resolveText, Json.placeholders]
    cases Placeholder.ofText? s with
    | none => rfl
    | some p =>
      rw [Option.toList_some, List.findSome?_singleton, Placeholder.failure?]
      simp only
      cases p.target declared <;> rfl
  | array xs =>
    rw [resolve, Json.placeholders, ← errorOf?_resolveItems xs]
    cases resolveItems declared xs <;> rfl
  | object fs =>
    rw [resolve, Json.placeholders, ← errorOf?_resolveFields fs]
    cases resolveFields declared fs <;> rfl
  | _ => rfl

theorem errorOf?_resolveItems (xs : List Json) : errorOf? (resolveItems declared xs) =
    (Json.placeholdersOfItems xs).findSome? (Placeholder.failure? declared) := by
  cases xs with
  | nil => rfl
  | cons x xs =>
    rw [resolveItems, Json.placeholdersOfItems, List.findSome?_append, ← errorOf?_resolve x,
      ← errorOf?_resolveItems xs]
    cases resolve declared x with
    | error e => rfl
    | ok d => cases resolveItems declared xs <;> rfl

theorem errorOf?_resolveFields (fs : List (String × Json)) :
    errorOf? (resolveFields declared fs) =
      (Json.placeholdersOfFields fs).findSome? (Placeholder.failure? declared) := by
  cases fs with
  | nil => rfl
  | cons f fs =>
    obtain ⟨k, v⟩ := f
    rw [resolveFields, Json.placeholdersOfFields, List.findSome?_append, ← errorOf?_resolve v,
      ← errorOf?_resolveFields fs]
    cases resolve declared v with
    | error e => rfl
    | ok d => cases resolveFields declared fs <;> rfl

end

namespace Placeholder

theorem failure?_eq_some_iff {p : Placeholder} {e : ReferenceError} :
    p.failure? declared = some e ↔ p.Dangles declared e := by
  rw [failure?, errorOf?_eq_some_iff, target_eq_error_iff]

theorem failure?_eq_none_iff {p : Placeholder} :
    p.failure? declared = none ↔ p.Known (declared.map Parameter.name) := by
  rw [← not_iff_not, ← exists_dangles_iff, ← ne_eq, Option.ne_none_iff_exists']
  simp only [failure?_eq_some_iff]

end Placeholder

namespace StepSpec

variable {s : StepSpec} (known : s.kind ∈ StepKind.all.map StepKind.name)
include known

/-- a step of a known kind fails as its arguments do, and the failure names the step -/
theorem errorOf?_build : errorOf? (s.build declared) =
    (s.arguments.val.placeholders.findSome? (Placeholder.failure? declared)).map
      (ConfigError.badArguments s.name) := by
  rw [build, ← errorOf?_resolve]
  cases hk : StepKind.ofName? s.kind with
  | none => exact absurd known (StepKind.ofName?_eq_none_iff.mp hk)
  | some kind => cases resolve declared s.arguments <;> rfl

theorem errorOf?_build_eq_none_iff : errorOf? (s.build declared) = none ↔
    ∀ p ∈ s.arguments.val.placeholders, p.Known (declared.map Parameter.name) := by
  rw [errorOf?_build known, Option.map_eq_none_iff, List.findSome?_eq_none_iff]
  simp only [Placeholder.failure?_eq_none_iff]

theorem errorOf?_build_eq_some_iff {e : ConfigError} : errorOf? (s.build declared) = some e ↔
    ∃ first p rest cause, s.arguments.val.placeholders = first ++ p :: rest ∧
      (∀ q ∈ first, q.Known (declared.map Parameter.name)) ∧ p.Dangles declared cause ∧
      e = .badArguments s.name cause := by
  rw [errorOf?_build known, Option.map_eq_some_iff]
  simp only [List.findSome?_eq_some_iff, Placeholder.failure?_eq_some_iff,
    Placeholder.failure?_eq_none_iff]
  constructor
  · rintro ⟨cause, ⟨first, p, rest, split, dangles, before⟩, rfl⟩
    exact ⟨first, p, rest, cause, split, before, dangles, rfl⟩
  · rintro ⟨first, p, rest, cause, split, before, dangles, rfl⟩
    exact ⟨cause, ⟨first, p, rest, split, dangles, before⟩, rfl⟩

end StepSpec

/-- **Steps fail as the first of them that fails.** -/
theorem Configuration.errorOf?_buildSteps (ss : List StepSpec) :
    errorOf? (buildSteps declared ss) = ss.findSome? fun s => errorOf? (s.build declared) := by
  induction ss with
  | nil => rfl
  | cons s ss ih =>
    rw [buildSteps, List.findSome?_cons, ← ih]
    cases s.build declared with
    | error e => rfl
    | ok t => cases buildSteps declared ss <;> rfl

/-! ## literal values -/

namespace Json

theorem mem_placeholders_iff {v : Json} {p : Placeholder} :
    p ∈ v.placeholders ↔ ∃ s, v.HasString s ∧ p.Spells s := by
  induction v using Json.induct with
  | string s =>
    rw [placeholders, Option.mem_toList, Placeholder.ofText?_iff]
    constructor
    · intro h
      exact ⟨s, .here, h⟩
    · rintro ⟨_, ⟨⟩, h⟩
      exact h
  | array xs ih =>
    rw [placeholders, placeholdersOfItems_eq, List.mem_flatMap]
    constructor
    · rintro ⟨x, hx, h⟩
      obtain ⟨s, hs, hp⟩ := (ih x hx).mp h
      exact ⟨s, .item hx hs, hp⟩
    · rintro ⟨s, _ | ⟨hx, hs⟩, hp⟩
      exact ⟨_, hx, (ih _ hx).mpr ⟨s, hs, hp⟩⟩
  | object fs ih =>
    rw [placeholders, placeholdersOfFields_eq, List.mem_flatMap]
    constructor
    · rintro ⟨f, hf, h⟩
      obtain ⟨s, hs, hp⟩ := (ih f hf).mp h
      exact ⟨s, .field hf hs, hp⟩
    · rintro ⟨s, _ | _ | ⟨hf, hs⟩, hp⟩
      exact ⟨_, hf, (ih _ hf).mpr ⟨s, hs, hp⟩⟩
  | _ =>
    constructor
    · nofun
    · rintro ⟨_, ⟨⟩, _⟩

/-- no string of the value at any depth is a placeholder -/
def Literal (v : Json) : Prop := ∀ s, v.HasString s → ∀ p : Placeholder, ¬ p.Spells s

theorem literal_iff_placeholders {v : Json} : v.Literal ↔ v.placeholders = [] := by
  rw [List.eq_nil_iff_forall_not_mem]
  constructor
  · intro h p hp
    obtain ⟨s, hs, spells⟩ := mem_placeholders_iff.mp hp
    exact h s hs p spells
  · intro h s hs p spells
    exact h p (mem_placeholders_iff.mpr ⟨s, hs, spells⟩)

end Json

theorem Document.isPlain_iff_deferreds {d : Document} : d.isPlain = true ↔ d.deferreds = [] := by
  induction d using induct with
  | sequence k xs ih =>
    rw [isPlain_sequence_iff, deferreds, deferredsOfItems_eq, List.flatMap_eq_nil_iff]
    exact forall₂_congr ih
  | object fs ih =>
    rw [isPlain_object_iff, deferreds, deferredsOfFields_eq, List.flatMap_eq_nil_iff]
    exact forall₂_congr ih
  | deferred t =>
    constructor
    · rintro ⟨⟩
    · rintro ⟨⟩
  | _ => exact ⟨fun _ => rfl, fun _ => rfl⟩

/-- **What is resolved has something deferred exactly if there was a placeholder.** -/
theorem isPlain_iff_literal {v : Json} {d : Document} (h : resolve declared v = .ok d) :
    d.isPlain = true ↔ v.Literal := by
  rw [Document.isPlain_iff_deferreds, Json.literal_iff_placeholders, ← List.length_eq_zero_iff,
    ← List.length_eq_zero_iff, (forall₂_target_deferreds h).length_eq]

theorem resolve_of_literal {v : Json} (h : v.Literal) :
    resolve declared v = .ok (Document.ofJson v) := by
  induction v using Json.induct with
  | string s =>
    apply Placeholder.resolveText_of_not_spells
    rintro ⟨p, hp⟩
    exact h s .here p hp
  | array xs ih =>
    refine resolve_array_eq_ok.mpr ⟨xs.map Document.ofJson, ?_, ?_⟩
    · rw [List.forall₂_map_right_iff, List.forall₂_same]
      exact fun x hx => ih x hx fun s hs => h s (.item hx hs)
    · rw [Document.ofJson, Document.ofJsonItems_eq, Document.list]
  | object fs ih =>
    refine resolve_object_eq_ok.mpr ⟨fs.map fun f => (f.1, Document.ofJson f.2), ?_, ?_⟩
    · rw [List.forall₂_map_right_iff, List.forall₂_same]
      exact fun f hf => ⟨rfl, ih f hf fun s hs => h s (.field hf hs)⟩
    · rw [Document.ofJson, Document.ofJsonFields_eq]
  | _ => rfl

namespace Configuration

section

variable {ss : List StepSpec} (known : ∀ s ∈ ss, s.kind ∈ StepKind.all.map StepKind.name)
include known

theorem exists_buildSteps_error_iff : (∃ e, buildSteps declared ss = .error e) ↔
    ∃ s ∈ ss, ∃ p ∈ s.arguments.val.placeholders, ∃ cause, p.Dangles declared cause := by
  simp only [← errorOf?_eq_some_iff, errorOf?_buildSteps, ← Option.isSome_iff_exists,
    List.findSome?_isSome_iff]
  refine exists_congr fun s => and_congr_right fun hs => ?_
  rw [← not_iff_not, Option.not_isSome_iff_eq_none,
    StepSpec.errorOf?_build_eq_none_iff (known s hs)]
  simp only [Placeholder.exists_dangles_iff, not_exists, not_and, not_not]

theorem buildSteps_eq_error_iff {e : ConfigError} : buildSteps declared ss = .error e ↔
    ∃ before s after, ss = before ++ s :: after ∧
      (∀ r ∈ before, ∀ p ∈ r.arguments.val.placeholders, p.Known (declared.map Parameter.name)) ∧
      ∃ first p rest cause, s.arguments.val.placeholders = first ++ p :: rest ∧
        (∀ q ∈ first, q.Known (declared.map Parameter.name)) ∧ p.Dangles declared cause ∧
        e = .badArguments s.name cause := by
  rw [← errorOf?_eq_some_iff, errorOf?_buildSteps, List.findSome?_eq_some_iff]
  constructor
  · rintro ⟨before, s, after, rfl, fails, fine⟩
    rw [List.forall_mem_append, List.forall_mem_cons] at known
    refine ⟨before, s, after, rfl, ?_, (StepSpec.errorOf?_build_eq_some_iff known.2.1).mp fails⟩
    intro r hr
    exact (StepSpec.errorOf?_build_eq_none_iff (known.1 r hr)).mp (fine r hr)
  · rintro ⟨before, s, after, rfl, fine, fails⟩
    rw [List.forall_mem_append, List.forall_mem_cons] at known
    refine ⟨before, s, after, rfl, (StepSpec.errorOf?_build_eq_some_iff known.2.1).mpr fails, ?_⟩
    intro r hr
    exact (StepSpec.errorOf?_build_eq_none_iff (known.1 r hr)).mpr (fine r hr)

end

/-- **The first dangling reference is reported**, and nothing is refused for any other reason. The
report names the first step that has one and, of its placeholders in document order, the first that
dangles. If none does, the steps are built of what their arguments are resolved to: a document that
has something deferred in it exactly if some string was a placeholder, and is the value itself as a
document otherwise. -/
theorem first_dangling_reported {ss : List StepSpec}
    (known : ∀ s ∈ ss, s.kind ∈ StepKind.all.map StepKind.name) :
    ((∃ e, buildSteps declared ss = .error e) ↔
      ∃ s ∈ ss, ∃ t, s.arguments.val.HasString t ∧
        ∃ (p : Placeholder) (cause : ReferenceError), p.Spells t ∧ p.Dangles declared cause) ∧
    (∀ e, buildSteps declared ss = .error e ↔
      ∃ before s after, ss = before ++ s :: after ∧
        (∀ r ∈ before, ∀ p ∈ r.arguments.val.placeholders, p.Known (declared.map Parameter.name)) ∧
        ∃ first p rest cause, s.arguments.val.placeholders = first ++ p :: rest ∧
          (∀ q ∈ first, q.Known (declared.map Parameter.name)) ∧ p.Dangles declared cause ∧
          e = .badArguments s.name cause) ∧
    (∀ ts, buildSteps declared ss = .ok ts → List.Forall₂ (fun s t => t.name = s.name ∧
      t.kind.name = s.kind ∧ resolve declared s.arguments = .ok t.arguments) ss ts) ∧
    ∀ v d, resolve declared v = .ok d →
      (d.isPlain = true ↔ v.Literal) ∧ (v.Literal → d = Document.ofJson v) := by
  refine ⟨?_, fun e => buildSteps_eq_error_iff known, ?_, ?_⟩
  · rw [exists_buildSteps_error_iff known]
    refine exists_congr fun s => and_congr_right fun _ => ?_
    constructor
    · rintro ⟨p, hp, cause, dangles⟩
      obtain ⟨t, ht, spells⟩ := Json.mem_placeholders_iff.mp hp
      exact ⟨t, ht, p, cause, spells, dangles⟩
    · rintro ⟨t, ht, p, cause, spells, dangles⟩
      exact ⟨p, Json.mem_placeholders_iff.mpr ⟨t, ht, spells⟩, cause, dangles⟩
  · intro ts h
    exact (buildSteps_eq_ok.mp h).imp fun s t => StepSpec.build_eq_ok.mp
  · intro v d h
    refine ⟨isPlain_iff_literal h, ?_⟩
    intro literal
    exact Except.ok.inj (h.symm.trans (resolve_of_literal literal))

/-- a key and a part of a string that look like a reference to what is not there, and three
references to what is not there -/
def danglingSteps : List StepSpec :=
  [⟨"a", "Training", ⟨.object [("\x7b\x7b Parameters.gone \x7d\x7d",
      .string "\x7b\x7b Parameters.x \x7d\x7d")], by decide⟩⟩,
    ⟨"b", "Condition", ⟨.array [.string "as \x7b\x7b Parameters.gone \x7d\x7d",
      .object [("k", .array [.null, .string "\x7b\x7bExecution.Tomorrow\x7d\x7d"]),
        ("l", .string "\x7b\x7b Parameters.gone \x7d\x7d")]], by decide⟩⟩,
    ⟨"c", "Transform", ⟨.string "\x7b\x7b Parameters.none \x7d\x7d", rfl⟩⟩]

theorem first_dangling_reported_nested :
    buildSteps [⟨"x", .string, none⟩] danglingSteps =
      .error (.badArguments "b" (.unknownVariable "Tomorrow")) ∧
    ∃ s ∈ danglingSteps, ∃ t, s.arguments.val.HasString t ∧ ∃ (p : Placeholder)
      (cause : ReferenceError), p.Spells t ∧ p.Dangles [⟨"x", .string, none⟩] cause := by
  obtain ⟨refused, reported, -, -⟩ :=
    @first_dangling_reported [⟨"x", .string, none⟩] danglingSteps (by decide)
  have fine : ∀ r ∈ danglingSteps.take 1, ∀ p ∈ r.arguments.val.placeholders, p.Known ["x"] := by
    intro r hr p hp
    obtain rfl := List.mem_singleton.mp hr
    obtain rfl : p = ⟨.parameters, "x"⟩ := List.mem_singleton.mp hp
    exact List.mem_singleton.mpr rfl
  have second := (reported (.badArguments "b" (.unknownVariable "Tomorrow"))).mpr
    ⟨danglingSteps.take 1, danglingSteps[1], danglingSteps.drop 2, rfl, fine, [],
      ⟨.execution, "Tomorrow"⟩, [⟨.parameters, "gone"⟩], _, rfl, nofun, .unknown (by decide), rfl⟩
  exact ⟨second, refused.mp ⟨_, second⟩⟩

end Configuration

end Workflow
