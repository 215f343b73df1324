import Workflow.Proofs.Config.Schema
import Workflow.Proofs.Record.Members

/-!
# A configuration comes back from its JSON form

A configuration writes null for what is not given, and reading takes null for what is not given. So
a configuration comes back as it is, but for a parameter whose default is null: it comes back
without a default. No kind of parameter accepts null, so a configuration that passes the check comes
back as it is. And in the JSON form only the members count, at the top and in every parameter and
step: not their order, and not what else stands there.

* `ParameterSpec.settled`, `Configuration.settled`   what comes back of any configuration;
* `Configuration.reading_toJson`                     it does;
* `Configuration.SameMembers`                        JSON forms that differ in nothing that counts;
* `Configuration.comes_back`                         what comes back of a checked configuration;
* `Configuration.comes_back_from_text`               the same by way of a text.
-/

namespace Workflow

open Record (Members SameItems)

/-- A reader of JSON text that is exact on this text. Some readers round numbers of many digits
roughly or go only so deep, so they are exact on other texts only. -/
def Json.ExactOn (parse : String → Option Json) (text : String) : Prop := parse text = read? text

/-! ## parameters and steps -/

namespace ParameterSpec

/-- a default of null is no default -/
def settled (p : ParameterSpec) : ParameterSpec :=
  match p.default? with
  | some ⟨.null, _⟩ => { p with default? := none }
  | _ => p

theorem settled_of_accepts {p : ParameterSpec} (h : ∀ v ∈ p.default?, p.kind.accepts v = true) :
    p.settled = p := by
  obtain ⟨name, kind, default?⟩ := p
  rw [settled]
  split
  · rename_i hnull
    cases kind <;> cases h _ hnull
  · rfl

theorem checked_members : members.Checked :=
  .seq (.seq (.seq .pure .required) .required) .fallback

theorem reading_toJson (p : ParameterSpec) : reading p.toJson = .ok p.settled := by
  have kind : ValueKind.reading (.string p.kind.name) = .ok p.kind := by
    cases p.kind <;> rfl
  have default : Record.optional Record.json (p.default?.elim .null Subtype.val) =
      .ok p.settled.default? := by
    obtain ⟨name, kind, default?⟩ := p
    cases default? with
    | none => rfl
    | some v =>
      have same := Record.json_coe v
      obtain ⟨v, hv⟩ := v
      cases v with
      | null => rfl
      | _ => simp only [Option.elim, Record.optional, same, settled]
  have same : p.settled = ⟨p.name, p.kind, p.settled.default?⟩ := by
    rw [settled]
    split <;> rfl
  rw [reading, toJson, Members.reading_object_eq_ok_iff checked_members (by simp [Fields.keys]), same]
  exact .seq (.seq (.seq .pure (.required rfl rfl)) (.required rfl kind)) (.fallback rfl default)

/-- the members of a parameter are the same -/
def SameMembers : Json → Json → Prop :=
  Record.SameMembers (Fields.keys members.checks) fun _ => Eq

theorem reading_sameMembers (v w : Json) (p : ParameterSpec) (h : SameMembers v w)
    (hv : reading v = .ok p) : reading w = .ok p :=
  Record.reading_sameMembers checked_members
    (.seq (.seq (.seq .pure (.required_of_eq rfl)) (.required_of_eq rfl)) (.fallback_of_eq rfl)) h hv

end ParameterSpec

namespace StepSpec

theorem checked_members : members.Checked :=
  .seq (.seq (.seq .pure .required) .required) .fallback

theorem reading_toJson (s : StepSpec) : reading s.toJson = .ok s := by
  obtain ⟨name, kind, arguments⟩ := s
  rw [reading, toJson, Members.reading_object_eq_ok_iff checked_members (by simp [Fields.keys])]
  exact .seq (.seq (.seq .pure (.required rfl rfl)) (.required rfl rfl))
    (.fallback rfl (Record.json_coe arguments))

/-- the members of a step are the same -/
def SameMembers : Json → Json → Prop :=
  Record.SameMembers (Fields.keys members.checks) fun _ => Eq

theorem reading_sameMembers (v w : Json) (s : StepSpec) (h : SameMembers v w)
    (hv : reading v = .ok s) : reading w = .ok s :=
  Record.reading_sameMembers checked_members
    (.seq (.seq (.seq .pure (.required_of_eq rfl)) (.required_of_eq rfl)) (.fallback_of_eq rfl)) h hv

end StepSpec

/-! ## configurations -/

namespace Configuration

/-- what comes back: a default of null is no default -/
def settled (c : Configuration) : Configuration :=
  { c with parameters := c.parameters.map ParameterSpec.settled }

theorem checked_members : members.Checked :=
  .seq (.seq (.seq (.seq (.seq .pure .required) .fallback) .fallback) .fallback) .required

theorem reading_toJson (c : Configuration) : reading c.toJson = .ok c.settled := by
  obtain ⟨name, description?, metadata, parameters, steps⟩ := c
  have hparameters : Record.list ParameterSpec.reading
      (.array (parameters.map ParameterSpec.toJson)) = .ok (parameters.map ParameterSpec.settled) :=
    Record.list_map fun p _ => p.reading_toJson
  have hsteps : Record.list StepSpec.reading (.array (steps.map StepSpec.toJson)) = .ok steps :=
    Record.list_map_self fun s _ => s.reading_toJson
  rw [reading, toJson, Members.reading_object_eq_ok_iff checked_members (by simp [Fields.keys])]
  refine .seq (.seq (.seq (.seq (.seq .pure (.required rfl rfl)) (.fallback rfl ?_))
    (.fallback rfl (Record.map_object_coe metadata))) (.fallback rfl hparameters))
      (.required rfl hsteps)
  cases description? <;> rfl

/-- how the values of a member are alike -/
def memberAlike : String → Json → Json → Prop
  | "parameters" => SameItems ParameterSpec.SameMembers
  | "steps" => SameItems StepSpec.SameMembers
  | _ => Eq

/-- the members of a configuration are the same, and so are those of its parameters and steps -/
def SameMembers : Json → Json → Prop :=
  Record.SameMembers (Fields.keys members.checks) memberAlike

theorem reading_sameMembers {v w : Json} {c : Configuration} (h : SameMembers v w)
    (hv : reading v = .ok c) : reading w = .ok c := by
  refine Record.reading_sameMembers checked_members ?_ h hv
  exact .seq (.seq (.seq (.seq (.seq .pure (.required_of_eq rfl)) (.fallback_of_eq rfl))
    (.fallback_of_eq rfl))
      (.fallback (Record.list_sameItems ParameterSpec.reading_sameMembers)))
        (.required (Record.list_sameItems StepSpec.reading_sameMembers))

theorem SameMembers.symm {v w : Json} (h : SameMembers v w) : SameMembers w v := by
  have plain (names : List String) (v w : Json) (h : Record.SameMembers names (fun _ => Eq) v w) :
      Record.SameMembers names (fun _ => Eq) w v := h.symm fun _ _ _ => Eq.symm
  refine Record.SameMembers.symm ?_ h
  intro name v w
  unfold memberAlike
  split
  · exact SameItems.symm (plain _)
  · exact SameItems.symm (plain _)
  · exact Eq.symm

theorem settled_of_sound {c : Configuration} (h : c.Sound) : c.settled = c := by
  have parameters : c.parameters.map ParameterSpec.settled = c.parameters := by
    rw [List.map_congr_left fun p hp => ParameterSpec.settled_of_accepts (h.defaults_fit p hp),
      List.map_id']
  rw [settled, parameters]

theorem wellKeyed_toJson (c : Configuration) : c.toJson.wellKeyed = true := by
  have parameters : (Json.array (c.parameters.map ParameterSpec.toJson)).wellKeyed = true := by
    rw [Json.wellKeyed_array_iff, List.forall_mem_map]
    rintro ⟨name, kind, default?⟩ -
    cases default? with
    | none => rfl
    | some v =>
      show (true && (true && (true && (v.val.wellKeyed && true)))) = true
      rw [v.property]
      rfl
  have steps : (Json.array (c.steps.map StepSpec.toJson)).wellKeyed = true := by
    rw [Json.wellKeyed_array_iff, List.forall_mem_map]
    intro s _
    show (true && (true && (true && (s.arguments.val.wellKeyed && true)))) = true
    rw [s.arguments.property]
    rfl
  rw [Configuration.toJson, Json.wellKeyed_object_iff]
  simp only [List.forall_mem_cons]
  refine ⟨by simp [Fields.keys], rfl, ?_, c.metadata.property, parameters, steps,
    List.forall_mem_nil _⟩
  cases c.description? <;> rfl

theorem reading_toJson_of_check {c : Configuration} (h : c.check = .ok ()) :
    reading c.toJson = .ok c := by
  rw [reading_toJson, settled_of_sound (sound_of_check h).1]

/-- **A checked configuration comes back from its JSON form as it is.** What comes back is checked
and has the same definition. And a configuration is read from any other value with the same members,
in whatever order and whatever else stands there. -/
theorem comes_back :
    (∀ c : Configuration, c.check = .ok () → reading c.toJson = .ok c ∧
      ∀ r, reading c.toJson = .ok r → r.check = .ok () ∧
        ∃ p q, c.build = .ok p ∧ r.build = .ok q ∧ q.definition = p.definition) ∧
    ∀ v w c, SameMembers v w → (reading v = .ok c ↔ reading w = .ok c) := by
  refine ⟨?_, ?_⟩
  · intro c hcheck
    have hread := reading_toJson_of_check hcheck
    obtain ⟨p, hp⟩ := build_of_check hcheck
    refine ⟨hread, ?_⟩
    intro r hr
    obtain rfl := Except.ok.inj (hread.symm.trans hr)
    exact ⟨hcheck, p, p, hp, hp, rfl⟩
  · intro v w c h
    exact ⟨reading_sameMembers h, reading_sameMembers h.symm⟩

/-- a parameter without a default, and a step with null for arguments -/
def bare : Configuration where
  name := "P"
  description? := none
  metadata := ⟨[("owner", .string "ops"), ("note", .null)], rfl⟩
  parameters := [⟨"Mode", .string, none⟩]
  steps := [⟨"Train", "Training", Json.keyed .null⟩]

/-- its JSON form from back to front, with more in it -/
def rearranged : Json :=
  .object [("version", .null),
    ("steps", .array [.object [("arguments", .null), ("type", .string "Training"),
      ("retries", .bool true), ("name", .string "Train")]]),
    ("parameters", .array [.object [("default", .null), ("type", .string "String"),
      ("name", .string "Mode"), ("note", .null)]]),
    ("metadata", .object [("owner", .string "ops"), ("note", .null)]),
    ("description", .null), ("name", .string "P")]

theorem comes_back_rearranged : reading bare.toJson = .ok bare ∧ bare.check = .ok () ∧
    reading rearranged = .ok bare := by
  have parameters : SameItems ParameterSpec.SameMembers
      (.array [.object [("name", .string "Mode"), ("type", .string "String"), ("default", .null)]])
      (.array [.object [("default", .null), ("type", .string "String"), ("name", .string "Mode"),
        ("note", .null)]]) := by
    refine .array (.cons (.object (by simp [Fields.keys]) (by simp [Fields.keys]) ?_) .nil)
    show ∀ name ∈ ["name", "type", "default"], _
    simp only [List.forall_mem_cons]
    exact ⟨.some rfl, .some rfl, .some rfl, List.forall_mem_nil _⟩
  have steps : SameItems StepSpec.SameMembers
      (.array [.object [("name", .string "Train"), ("type", .string "Training"),
        ("arguments", .null)]])
      (.array [.object [("arguments", .null), ("type", .string "Training"),
        ("retries", .bool true), ("name", .string "Train")]]) := by
    refine .array (.cons (.object (by simp [Fields.keys]) (by simp [Fields.keys]) ?_) .nil)
    show ∀ name ∈ ["name", "type", "arguments"], _
    simp only [List.forall_mem_cons]
    exact ⟨.some rfl, .some rfl, .some rfl, List.forall_mem_nil _⟩
  have same : SameMembers bare.toJson rearranged := by
    refine .object (by simp [Fields.keys]) (by simp [Fields.keys]) ?_
    show ∀ name ∈ ["name", "description", "metadata", "parameters", "steps"], _
    simp only [List.forall_mem_cons]
    exact ⟨.some rfl, .some rfl, .some rfl, .some parameters, .some steps, List.forall_mem_nil _⟩
  obtain ⟨hread, hagain⟩ := comes_back.1 bare rfl
  exact ⟨hread, (hagain bare hread).1,
    (comes_back.2 bare.toJson rearranged bare same).mp hread⟩

/-! ## by way of a text -/

/-- A checked configuration comes back from the text of its JSON form by every reader that reads
this text exactly. -/
theorem comes_back_from_text {c : Configuration} (h : c.check = .ok ())
    {parse : String → Option Json} (hexact : Json.ExactOn parse c.toJson.compact) :
    ∃ v, parse c.toJson.compact = some v ∧ reading v = .ok c := by
  refine ⟨c.toJson, ?_, reading_toJson_of_check h⟩
  rw [hexact]
  exact Json.read?_text Json.Style.blank_compact ⟨_, c.wellKeyed_toJson⟩

end Configuration

end Workflow
