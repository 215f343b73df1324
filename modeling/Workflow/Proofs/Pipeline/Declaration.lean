import Mathlib.Data.List.Nodup
import Workflow.Proofs.Json.RoundTrip
import Workflow.Proofs.Pipeline.Request

/-!
# Parameters over the life of a pipeline

A pipeline starts without parameters. A change adds one, replaces all, or leaves them alone, and a
change that is refused leaves everything alone. So after any changes the parameters are those that
were declared and not refused, in order; their names are distinct, and what a parameter is made of
stays proper. A name then finds its parameter, and the definition lists the parameters and nothing
else under their key.

* `Parameter.Built`                    made by a declaration and defaults given to it;
* `Edit.declare`                       what a change does to a list of parameters;
* `Pipeline.parameters_editOrKeep`     the parameters after one change;
* `Pipeline.Declared`                  names are distinct and parameters proper;
* `Declared.foldl_editOrKeep`          this stays so over any changes;
* `Declared.parameter?_eq_some_iff`    a name finds the parameter of that name;
* `Pipeline.wire_eq_definition_iff`    what the definition is the text of.
-/

namespace Workflow

/-! ## parameters as they are made -/

/-- declared, and given a default any number of times -/
inductive Parameter.Built : Parameter → Prop where
  | declared {name : String} {kind : ValueKind} {p : Parameter} (h : declare name kind = .ok p) :
      Built p
  | defaulted {p q : Parameter} {value : Json} (hp : Built p) (h : p.withDefault value = .ok q) :
      Built q

theorem Parameter.Built.proper {p : Parameter} (h : p.Built) : p.Proper := by
  induction h with
  | declared h => exact proper_of_declare h
  | defaulted _ h ih => exact proper_of_withDefault ih h

/-! ## what a change does to the parameters -/

namespace Edit

/-- all parameters that come with the change are built -/
def Built : Edit → Prop
  | addParameter q => q.Built
  | setParameters qs => ∀ q ∈ qs, q.Built
  | _ => True

/-- one more parameter if its name is new, other parameters if their names are distinct -/
def declare (ps : List Parameter) : Edit → List Parameter
  | addParameter q => if q.name ∈ ps.map Parameter.name then ps else ps ++ [q]
  | setParameters qs => if (qs.map Parameter.name).Nodup then qs else ps
  | _ => ps

theorem nodup_declare {ps : List Parameter} (h : (ps.map Parameter.name).Nodup) (e : Edit) :
    ((e.declare ps).map Parameter.name).Nodup := by
  cases e with
  | addParameter q =>
    rw [declare]
    split
    · exact h
    · rename_i fresh
      rw [List.map_append, List.nodup_append]
      refine ⟨h, List.nodup_singleton q.name, ?_⟩
      intro n hn m hm
      obtain rfl := List.mem_singleton.mp hm
      exact fun same => fresh (same ▸ hn)
  | setParameters qs =>
    rw [declare]
    split
    · assumption
    · exact h
  | _ => exact h

theorem proper_declare {ps : List Parameter} (h : ∀ q ∈ ps, q.Proper) {e : Edit} (built : e.Built) :
    ∀ q ∈ e.declare ps, q.Proper := by
  cases e with
  | addParameter r =>
    rw [declare]
    split
    · exact h
    · rw [List.forall_mem_append, List.forall_mem_singleton]
      exact ⟨h, Parameter.Built.proper built⟩
  | setParameters qs =>
    rw [declare]
    split
    · exact fun q hq => (built q hq).proper
    · exact h
  | _ => exact h

end Edit

namespace Pipeline

theorem parameter?_eq_none_iff {p : Pipeline} {n : String} :
    p.parameter? n = none ↔ n ∉ p.parameters.map Parameter.name := by
  simp [parameter?]

/-- a parameter is refused exactly if its name is taken, and then the pipeline is left as it is -/
theorem pushParameter_eq (p : Pipeline) (q : Parameter) : p.pushParameter q =
    if q.name ∈ p.parameters.map Parameter.name then (.error (.duplicateParameter q.name), p)
    else (.ok (), { p with parameters := p.parameters ++ [q] }) := by
  rw [pushParameter]
  split
  · rename_i taken
    have hname : q.name ∈ p.parameters.map Parameter.name := by
      by_contra fresh
      rw [parameter?_eq_none_iff.mpr fresh] at taken
      cases taken
    rw [if_pos hname]
  · rename_i fresh
    rw [if_neg (parameter?_eq_none_iff.mp fresh)]

theorem addParameter_eq (p : Pipeline) (q : Parameter) : p.addParameter q =
    if q.name ∈ p.parameters.map Parameter.name then .error (.duplicateParameter q.name)
    else .ok { p with parameters := p.parameters ++ [q] } := by
  rw [addParameter, pushParameter_eq]
  by_cases taken : q.name ∈ p.parameters.map Parameter.name
  · rw [if_pos taken, if_pos taken]
  · rw [if_neg taken, if_neg taken]

theorem editOrKeep_addParameter (p : Pipeline) (q : Parameter) :
    p.editOrKeep (.addParameter q) = { p with parameters := (Edit.addParameter q).declare p.parameters } := by
  rw [editOrKeep, pushParameter_eq, Edit.declare]
  by_cases taken : q.name ∈ p.parameters.map Parameter.name
  · rw [if_pos taken, if_pos taken]
  · rw [if_neg taken, if_neg taken]

theorem editOrKeep_setParameters (p : Pipeline) (qs : List Parameter) :
    p.editOrKeep (.setParameters qs) =
      { p with parameters := (Edit.setParameters qs).declare p.parameters } := by
  show (p.withParameters qs).toOption.getD p = _
  rw [withParameters, Edit.declare]
  cases hrepeated : repeatedName? [] (qs.map Parameter.name) with
  | none =>
    rw [if_pos (repeatedName?_nil_eq_none_iff.mp hrepeated)]
    rfl
  | some n =>
    have repeated : ¬ (qs.map Parameter.name).Nodup := by
      intro distinct
      rw [repeatedName?_nil_eq_none_iff.mpr distinct] at hrepeated
      cases hrepeated
    rw [if_neg repeated]
    rfl

/-- **What one change does to the parameters**, whether it is refused or not. -/
theorem parameters_editOrKeep (p : Pipeline) (e : Edit) :
    (p.editOrKeep e).parameters = e.declare p.parameters := by
  cases e with
  | addParameter q => rw [editOrKeep_addParameter]
  | setParameters qs => rw [editOrKeep_setParameters]
  | _ => rfl

theorem parameters_foldl_editOrKeep (p : Pipeline) (edits : List Edit) :
    (edits.foldl editOrKeep p).parameters = edits.foldl Edit.declare p.parameters := by
  induction edits generalizing p with
  | nil => rfl
  | cons e edits ih => rw [List.foldl_cons, List.foldl_cons, ih, parameters_editOrKeep]

/-! ## what stays so -/

/-- names are distinct, none is blank, and defaults are of their kind -/
structure Declared (p : Pipeline) : Prop where
  distinct : (p.parameters.map Parameter.name).Nodup
  proper : ∀ q ∈ p.parameters, q.Proper

theorem declared_of_empty {name : String} {p : Pipeline} (h : empty name = .ok p) : p.Declared := by
  rw [empty] at h
  split at h
  · cases h
  · obtain rfl := Except.ok.inj h
    exact ⟨List.nodup_nil, List.forall_mem_nil _⟩

theorem Declared.editOrKeep {p : Pipeline} (h : p.Declared) {e : Edit} (built : e.Built) :
    (p.editOrKeep e).Declared := by
  refine ⟨?_, ?_⟩
  · rw [parameters_editOrKeep]
    exact Edit.nodup_declare h.distinct e
  · rw [parameters_editOrKeep]
    exact Edit.proper_declare h.proper built

theorem Declared.foldl_editOrKeep {p : Pipeline} (h : p.Declared) {edits : List Edit}
    (built : ∀ e ∈ edits, e.Built) : (edits.foldl Pipeline.editOrKeep p).Declared := by
  induction edits generalizing p with
  | nil => exact h
  | cons e edits ih =>
    obtain ⟨first, rest⟩ := List.forall_mem_cons.mp built
    exact ih (h.editOrKeep first) rest

/-! ## names and the definition -/

/-- among distinct names a name finds its one parameter -/
theorem Declared.parameter?_eq_some_iff {p : Pipeline} (h : p.Declared) {n : String} {q : Parameter} :
    p.parameter? n = some q ↔ q ∈ p.parameters ∧ q.name = n := by
  constructor
  · intro found
    exact ⟨List.mem_of_find?_eq_some found, by simpa using List.find?_some found⟩
  · rintro ⟨hq, rfl⟩
    cases hfound : p.parameter? q.name with
    | none => exact absurd (List.mem_map_of_mem hq) (parameter?_eq_none_iff.mp hfound)
    | some r =>
      have hr : r ∈ p.parameters := List.mem_of_find?_eq_some hfound
      have hname : r.name = q.name := by
        simpa using List.find?_some hfound
      rw [List.inj_on_of_nodup_map h.distinct hr hq hname]

/-- the fields of the definition, under `Parameters` a list of them all -/
def fields (p : Pipeline) : List (String × Json) :=
  [("Version", .string schemaVersion), ("Metadata", (Document.object p.metadata).toJson),
    ("Parameters", .array (p.parameters.map fun q =>
      .object ([("Name", .string q.name), ("Type", .string q.kind.name)] ++
        (q.default?.map fun v => ("DefaultValue", v)).toList))),
    ("Steps", .array (p.steps.map fun s => s.toDocument.expand.toJson))]

/-- a definition is the text of one JSON value, which lists the parameters -/
theorem wire_eq_definition_iff (p : Pipeline) {v : Json} :
    v.wire = p.definition ↔ v = .object p.fields := by
  have written := p.toJson_expanded
  simp only [Parameter.toJson_toDocument] at written
  rw [definition, Document.wire, Json.wire_inj, written, fields]

/-- **Parameters after any changes**, accepted or refused: they are those that were declared, in
order, with distinct names that are not blank and defaults of their kind. A name finds the one
parameter of that name, and the definition lists them all. One more is refused exactly if its name
is taken, and then nothing changes. -/
theorem parameters_after_edits {name : String} {start : Pipeline} (h : empty name = .ok start)
    {edits : List Edit} (built : ∀ e ∈ edits, e.Built) {p : Pipeline}
    (hp : p = edits.foldl editOrKeep start) :
    p.parameters = edits.foldl Edit.declare [] ∧ (p.parameters.map Parameter.name).Nodup ∧
      (∀ q ∈ p.parameters, Text.isBlank q.name = false ∧
        ∀ v ∈ q.default?, q.kind.accepts v = true) ∧
      (∀ n, (∀ q, p.parameter? n = some q ↔ q ∈ p.parameters ∧ q.name = n) ∧
        (p.parameter? n = none ↔ n ∉ p.parameters.map Parameter.name)) ∧
      (∃ fields, (∀ v : Json, v.wire = p.definition ↔ v = .object fields) ∧
        Fields.get? "Parameters" fields = some (.array (p.parameters.map fun q =>
          .object ([("Name", .string q.name), ("Type", .string q.kind.name)] ++
            (q.default?.map fun v => ("DefaultValue", v)).toList)))) ∧
      ∀ q, (q.name ∈ p.parameters.map Parameter.name →
          p.pushParameter q = (.error (.duplicateParameter q.name), p) ∧
            p.addParameter q = .error (.duplicateParameter q.name) ∧
            p.editOrKeep (.addParameter q) = p) ∧
        (q.name ∉ p.parameters.map Parameter.name →
          p.pushParameter q = (.ok (), { p with parameters := p.parameters ++ [q] }) ∧
            p.addParameter q = .ok { p with parameters := p.parameters ++ [q] }) := by
  have declared : p.Declared := hp ▸ (declared_of_empty h).foldl_editOrKeep built
  have none_at_first : start.parameters = [] := by
    rw [empty] at h
    split at h
    · cases h
    · rw [← Except.ok.inj h]
  refine ⟨?_, declared.distinct, ?_, ?_,
    ⟨p.fields, fun _ => p.wire_eq_definition_iff, rfl⟩, fun q => ⟨?_, ?_⟩⟩
  · rw [hp, parameters_foldl_editOrKeep, none_at_first]
  · exact fun q hq => ⟨(declared.proper q hq).name_not_blank, (declared.proper q hq).default_fits⟩
  · exact fun n => ⟨fun q => declared.parameter?_eq_some_iff, parameter?_eq_none_iff⟩
  · intro taken
    refine ⟨?_, ?_, ?_⟩
    · rw [pushParameter_eq, if_pos taken]
    · rw [addParameter_eq, if_pos taken]
    · rw [editOrKeep_addParameter, Edit.declare, if_pos taken]
  · intro fresh
    rw [pushParameter_eq, addParameter_eq, if_neg fresh, if_neg fresh]
    exact ⟨rfl, rfl⟩

/-- a second `x`, a list with `z` twice, then another list, a blank name and a second `z` -/
def refusedEdits : List Edit :=
  [.addParameter ⟨"x", .string, none⟩, .addParameter ⟨"x", .float, none⟩,
    .setParameters [⟨"z", .string, none⟩, ⟨"y", .string, none⟩, ⟨"z", .float, none⟩],
    .setMetadata [("x", .null)],
    .setParameters [⟨"z", .string, some (.string "")⟩, ⟨" y", .integer, none⟩], .rename " ",
    .addEntry (.group none []), .addParameter ⟨"z", .string, none⟩]

theorem built_refusedEdits : ∀ e ∈ refusedEdits, e.Built := by
  have plain : ∀ (n : String) (k : ValueKind), Text.isBlank n = false →
      Parameter.Built ⟨n, k, none⟩ :=
    fun n k h => .declared (Parameter.declare_eq_ok.mpr ⟨h, rfl⟩)
  have given : Parameter.Built ⟨"z", .string, some (.string "")⟩ :=
    .defaulted (plain "z" .string rfl) (Parameter.withDefault_eq_ok.mpr ⟨rfl, rfl⟩)
  simp only [refusedEdits, List.forall_mem_cons, Edit.Built]
  exact ⟨plain _ _ rfl, plain _ _ rfl,
    ⟨plain _ _ rfl, plain _ _ rfl, plain _ _ rfl, nofun⟩, trivial,
    ⟨given, plain _ _ rfl, nofun⟩, trivial, trivial, plain _ _ rfl, nofun⟩

theorem parameters_after_refusedEdits : ∃ start p, empty "p" = .ok start ∧
    p = refusedEdits.foldl editOrKeep start ∧
      p.parameters = [⟨"z", .string, some (.string "")⟩, ⟨" y", .integer, none⟩] ∧
      p.parameter? " y" = some ⟨" y", .integer, none⟩ ∧ p.parameter? "x" = none ∧
      p.editOrKeep (.addParameter ⟨"z", .float, none⟩) = p := by
  have start : empty "p" = .ok ⟨"p", [], [], []⟩ := rfl
  obtain ⟨hparameters, -, -, hfinds, -, hadds⟩ :=
    parameters_after_edits start built_refusedEdits rfl
  have names : (refusedEdits.foldl editOrKeep ⟨"p", [], [], []⟩).parameters.map Parameter.name =
      ["z", " y"] := rfl
  refine ⟨_, _, start, rfl, hparameters, ?_, ?_, ?_⟩
  · exact ((hfinds " y").1 _).mpr ⟨hparameters ▸ .tail _ (.head _), rfl⟩
  · exact (hfinds "x").2.mpr (by rw [names]; decide)
  · exact ((hadds ⟨"z", .float, none⟩).1 (by rw [names]; decide)).2.2

end Pipeline

end Workflow
