import Workflow.CommandLine.Outcome
import Workflow.Proofs.Config.Building
import Workflow.Proofs.Pipeline.Request

/-!
# The two commands agree

Both commands load the file that they are given and succeed exactly if there is a pipeline in it.
What they print about it is one document: on one line, indented, and as a list of its steps.

* `IsValue`                 a text that counts as the value of an option in front of it;
* `Command.arguments`       the arguments that ask for a command, and `Command.outcome` its outcome;
* `Command.ofArguments_of_isValue`   they are understood if the file is given by a value;
* `load_eq_ok`              the pipeline that is loaded;
* `Announces`               the line about a step in the document;
* `outcome_cases`           the commands fail alike, or print the pipeline that is loaded;
* `commands_agree`          when they succeed, and what they print then.
-/

namespace Workflow.CommandLine

/-! ## the arguments -/

/-- a text that is not taken for an option, as it would be with a hyphen before anything -/
def IsValue (a : String) : Prop := ∀ c cs, a.toList ≠ '-' :: c :: cs

/-- the file is asked for and not given yet -/
def awaiting : Given := ⟨[], [], some (.file, none)⟩

/-- what is wrong if an option stands where a value is due -/
def Stop.IsMistake (stop : Stop) : Prop :=
  stop = .unknownArgument ∨ stop = .missingValue ∨ stop = .surplusValue

theorem Stop.IsMistake.outcome {stop : Stop} (h : stop.IsMistake) :
    stop.outcome = ⟨2, "", linesText stop.complaint⟩ := by
  rcases h with rfl | rfl | rfl <;> rfl

namespace Level

variable {l : Level}

theorem long_awaiting (cs : List Char) :
    ∃ stop, l.long awaiting cs = .error stop ∧ stop.IsMistake := by
  unfold long
  dsimp only
  split
  · exact ⟨_, rfl, .inl rfl⟩
  · split
    · exact ⟨_, rfl, .inr (.inl rfl)⟩
    · split
      · exact ⟨_, rfl, .inr (.inr rfl)⟩
      · exact ⟨_, rfl, .inr (.inl rfl)⟩

theorem short_awaiting (c : Char) (cs : List Char) :
    ∃ stop, l.short awaiting (c :: cs) = .error stop ∧ stop.IsMistake := by
  unfold short
  split
  · exact ⟨_, rfl, .inl rfl⟩
  · split
    · split <;> exact ⟨_, rfl, .inr (.inl rfl)⟩
    · exact ⟨_, rfl, .inr (.inl rfl)⟩

variable (hl : l.hasCommands = false)
include hl

theorem scan_value {file : String} (h : IsValue file) (rest : List String) :
    l.scan false awaiting (file :: rest) =
      l.scan false ⟨[], [], some (.file, some file)⟩ rest := by
  have awaits : awaiting.awaits = true := rfl
  simp only [scan, hl, awaits, Bool.false_and, Bool.false_eq_true, if_false, if_true]
  split
  · rename_i hfile
    exact absurd hfile (h _ _)
  · rename_i hfile
    exact absurd hfile (h _ _)
  · rename_i hfile
    exact absurd hfile (h _ _)
  · rfl

theorem scan_of_not_isValue {file : String} (h : ¬ IsValue file) (rest : List String) :
    ∃ stop, l.scan false awaiting (file :: rest) = .error stop ∧ stop.IsMistake := by
  have awaits : awaiting.awaits = true := rfl
  simp only [scan, hl, awaits, Bool.false_and, Bool.false_eq_true, if_false, if_true]
  split
  · cases rest with
    | nil => exact ⟨_, rfl, .inr (.inl rfl)⟩
    | cons a rest =>
      refine ⟨l.stray true a, rfl, .inl ?_⟩
      rw [stray, hl]
      rfl
  · rename_i cs _ _
    obtain ⟨stop, hstop, hmistake⟩ := l.long_awaiting cs
    exact ⟨stop, by rw [hstop], hmistake⟩
  · rename_i c cs _ _ _
    obtain ⟨stop, hstop, hmistake⟩ := l.short_awaiting c cs
    exact ⟨stop, by rw [hstop], hmistake⟩
  · rename_i hother
    exact absurd (fun c cs => hother c cs) h

end Level

namespace Command

/-- the arguments after the file -/
def flags : Command → List String
  | definition _ pretty => if pretty then ["--pretty"] else []
  | validate _ json => if json then ["--json"] else []

/-- the arguments that ask for a command -/
def arguments : Command → List String
  | definition file pretty => "definition" :: "-f" :: file :: (definition file pretty).flags
  | validate file json => "validate" :: "-f" :: file :: (validate file json).flags

def level : Command → Level
  | definition _ _ => .definition
  | validate _ _ => .validate

/-- the invocation of a command with its options and its file -/
def given : Command → Given × String → Invocation
  | definition _ _, (own, file) => ⟨.definition file (own.has .pretty), own.has .verbose⟩
  | validate _ _, (own, file) => ⟨.validate file (own.has .json), own.has .verbose⟩

theorem ofArguments_arguments (c : Command) : Invocation.ofArguments c.arguments =
    (commandOptions c.level ("-f" :: c.file :: c.flags)).map c.given := by
  cases c with
  | definition file pretty =>
    let words := "-f" :: file :: (definition file pretty).flags
    show commandOptions .definition words >>= _ = (commandOptions .definition words).map _
    cases commandOptions .definition words <;> rfl
  | validate file json =>
    let words := "-f" :: file :: (validate file json).flags
    show commandOptions .validate words >>= _ = (commandOptions .validate words).map _
    cases commandOptions .validate words <;> rfl

variable {c : Command}

theorem hasCommands_level : c.level.hasCommands = false := by cases c <;> rfl

theorem scan_level (rest : List String) :
    c.level.scan false .nothing ("-f" :: rest) = c.level.scan false awaiting rest := by
  cases c <;> rfl

theorem commandOptions_of_isValue (h : IsValue c.file) :
    ∃ own, commandOptions c.level ("-f" :: c.file :: c.flags) = .ok (own, c.file) ∧
      c.given (own, c.file) = ⟨c, false⟩ := by
  rw [commandOptions, scan_level, Level.scan_value hasCommands_level h]
  cases c with
  | definition file pretty => cases pretty <;> exact ⟨_, rfl, rfl⟩
  | validate file json => cases json <;> exact ⟨_, rfl, rfl⟩

theorem commandOptions_of_not_isValue (h : ¬ IsValue c.file) :
    ∃ stop, commandOptions c.level ("-f" :: c.file :: c.flags) = .error stop ∧ stop.IsMistake := by
  obtain ⟨stop, hstop, hmistake⟩ := Level.scan_of_not_isValue (hasCommands_level (c := c)) h c.flags
  refine ⟨stop, ?_, hmistake⟩
  rw [commandOptions, scan_level, hstop]
  rfl

/-- the arguments of a command ask for it if the file is given by a value -/
theorem ofArguments_of_isValue (h : IsValue c.file) :
    Invocation.ofArguments c.arguments = .ok ⟨c, false⟩ := by
  obtain ⟨own, hoptions, hgiven⟩ := commandOptions_of_isValue h
  rw [ofArguments_arguments, hoptions, Except.map, hgiven]

/-- an option in the place of the file is a mistake -/
theorem ofArguments_of_not_isValue (h : ¬ IsValue c.file) :
    ∃ stop, Invocation.ofArguments c.arguments = .error stop ∧ stop.IsMistake := by
  obtain ⟨stop, hstop, hmistake⟩ := commandOptions_of_not_isValue h
  refine ⟨stop, ?_, hmistake⟩
  rw [ofArguments_arguments, hstop, Except.map]

/-- what comes of a command that is asked for -/
def outcome (c : Command) (host : Host) : Outcome := runOn host c.arguments

end Command

/-! ## what is loaded -/

theorem load_eq_ok {host : Host} {file : String} {p : Pipeline} :
    load host file = .ok p ↔ ∃ text c, host.read file = .ok text ∧ host.parse text = some c ∧
      c.check = .ok () ∧ c.build = .ok p := by
  rw [load]
  cases host.read file with
  | error cause => simp
  | ok text =>
    cases hc : host.parse text with
    | none => simp [hc]
    | some c =>
      simp only [pipelineOf]
      cases hcheck : c.check with
      | error e => simp [hc, hcheck]
      | ok u => cases hbuild : c.build <;> simp [hc, hcheck, hbuild]

/-! ## what is printed -/

theorem linesText_append (xs ys : List String) :
    linesText (xs ++ ys) = linesText xs ++ linesText ys := by
  rw [linesText, List.map_append, String.join_append]
  rfl

theorem linesText_cons (x : String) (xs : List String) :
    linesText (x :: xs) = x ++ "\n" ++ linesText xs := by
  rw [linesText, List.map_cons, String.join_cons]
  rfl

theorem linesText_singleton (x : String) : linesText [x] = x ++ "\n" := by
  rw [linesText_cons]
  exact String.append_empty

/-- the line about the step that is in the document as this entry -/
def Announces (colors : Bool) (entry : Json) (line : String) : Prop :=
  ∃ name kind arguments state, entry = .object [("Name", .string name), ("Type", .string kind),
      ("Arguments", arguments)] ∧
    (state = Paint.dim.on colors "literal" ∨ state = Paint.yellow.on colors "deferred") ∧
    line = "    " ++ (Paint.bold.on colors name ++ " [" ++ kind ++ "] " ++ state)

theorem announces_step (colors : Bool) (s : Step) :
    Announces colors s.toDocument.expand.toJson ("    " ++ s.summary colors) := by
  refine ⟨s.name, s.kind.name, s.arguments.expand.toJson, _, s.toJson_expand, ?_, rfl⟩
  split
  · exact .inl rfl
  · exact .inr rfl

/-- what is said about a pipeline before its steps -/
def aboutLines (t : Terminal) (p : Pipeline) : List String :=
  [t.doing ++ " Validating pipeline...", t.success ++ " Pipeline configuration is valid!",
      "  Name: " ++ Paint.bold.on t.colors p.name,
      "  Parameters: " ++ Paint.cyan.on t.colors (Record.decimalText p.parameters.length)] ++
    p.parameters.map fun q => "    " ++ q.summary t.colors

/-- what is said about the steps -/
def stepLines (t : Terminal) (steps : List Step) : List String :=
  ("  Steps: " ++ Paint.cyan.on t.colors (Record.decimalText steps.length)) ::
    steps.map fun s => "    " ++ s.summary t.colors

section
variable {host : Host} {file : String}

theorem outcome_definition (h : IsValue file) (pretty : Bool) :
    (Command.definition file pretty).outcome host = definitionOutcome host file pretty := by
  have hargs := Command.ofArguments_of_isValue (c := .definition file pretty) h
  rw [Command.outcome, runOn, hargs]

theorem outcome_validate (h : IsValue file) (json : Bool) :
    (Command.validate file json).outcome host = validateOutcome host file json := by
  have hargs := Command.ofArguments_of_isValue (c := .validate file json) h
  rw [Command.outcome, runOn, hargs]

theorem outcome_of_not_isValue {c : Command} (h : ¬ IsValue c.file) :
    ∃ complaint, c.outcome host = ⟨2, "", complaint⟩ := by
  obtain ⟨stop, hstop, hmistake⟩ := Command.ofArguments_of_not_isValue h
  refine ⟨linesText stop.complaint, ?_⟩
  rw [Command.outcome, runOn, hstop]
  exact hmistake.outcome

theorem validateOutcome_of_load {p : Pipeline} (h : load host file = .ok p) (json : Bool) :
    validateOutcome host file json =
      ⟨0, linesText (aboutLines host.terminal p ++ stepLines host.terminal p.steps) ++
        if json then "\n" ++ (p.expanded.toJson.pretty ++ "\n") else "", ""⟩ := by
  have hlines : (host.terminal.doing ++ " Validating pipeline...") :: pipelineLines host.terminal p =
      aboutLines host.terminal p ++ stepLines host.terminal p.steps := rfl
  simp only [validateOutcome, h]
  rw [← List.cons_append, hlines, linesText_append]
  cases json with
  | false => rfl
  | true =>
    have hlast : linesText ["", p.expanded.toJson.pretty] =
        "\n" ++ (p.expanded.toJson.pretty ++ "\n") := by
      rw [← linesText_singleton, linesText_cons]
      rfl
    rw [if_pos rfl, if_pos rfl, hlast]

end

/-- the commands fail alike and print no document, or print the pipeline that is loaded -/
theorem outcome_cases (host : Host) (file : String) :
    (∃ code, code ≠ 0 ∧
      (∀ pretty, ∃ complaint,
        (Command.definition file pretty).outcome host = ⟨code, "", complaint⟩) ∧
      ∀ json, ((Command.validate file json).outcome host).exitCode = code) ∨
    ∃ p, load host file = .ok p ∧
      (∀ pretty, (Command.definition file pretty).outcome host =
        ⟨0, (if pretty then p.expanded.toJson.pretty else p.definition) ++ "\n", ""⟩) ∧
      ∀ json, (Command.validate file json).outcome host =
        ⟨0, linesText (aboutLines host.terminal p ++ stepLines host.terminal p.steps) ++
          if json then "\n" ++ (p.expanded.toJson.pretty ++ "\n") else "", ""⟩ := by
  by_cases hfile : IsValue file
  · simp only [outcome_definition hfile, outcome_validate hfile]
    cases hload : load host file with
    | error e =>
      refine .inl ⟨1, by decide, fun pretty => ?_, fun json => ?_⟩
      · exact ⟨linesText ["Error: " ++ e.chain], by simp only [definitionOutcome, hload]⟩
      · simp only [validateOutcome, hload]
    | ok p =>
      refine .inr ⟨p, rfl, fun pretty => ?_, validateOutcome_of_load hload⟩
      simp only [definitionOutcome, hload, linesText_singleton]
  · refine .inl ⟨2, by decide, fun pretty => outcome_of_not_isValue hfile, fun json => ?_⟩
    obtain ⟨complaint, hrun⟩ : ∃ complaint,
        (Command.validate file json).outcome host = ⟨2, "", complaint⟩ :=
      outcome_of_not_isValue hfile
    rw [hrun]

/-- **Both commands succeed for the same files**, namely those that can be read and hold a pipeline,
and about any other file nothing is printed as a definition. The definition that is printed, the
indented text and the document after the summary are one document, which both layouts read back as;
the summary counts and names the steps as they are listed in it. All this is so whatever texts are
taken for configurations. -/
theorem commands_agree (host : Host) (file : String) :
    (∀ pretty json, ((Command.definition file pretty).outcome host).exitCode = 0 ↔
        ((Command.validate file json).outcome host).exitCode = 0) ∧
      (∀ pretty, ((Command.definition file pretty).outcome host).exitCode ≠ 0 →
        ((Command.definition file pretty).outcome host).output = "") ∧
      (((Command.definition file false).outcome host).exitCode = 0 →
        ∃ text c p shown v entries lines, host.read file = .ok text ∧ host.parse text = some c ∧
          c.check = .ok () ∧ c.build = .ok p ∧
          ((Command.definition file false).outcome host).output = p.definition ++ "\n" ∧
          ((Command.definition file true).outcome host).output = shown ++ "\n" ∧
          ((Command.validate file true).outcome host).output =
            ((Command.validate file false).outcome host).output ++ ("\n" ++ (shown ++ "\n")) ∧
          Json.read? p.definition = some v ∧ Json.read? shown = some v ∧
          v.get? "Steps" = some (.array entries) ∧
          ((Command.validate file false).outcome host).output =
            linesText (aboutLines host.terminal p ++ ("  Steps: " ++
              Paint.cyan.on host.terminal.colors (Record.decimalText entries.length)) :: lines) ∧
          List.Forall₂ (Announces host.terminal.colors) entries lines) := by
  rcases outcome_cases host file with ⟨code, hcode, hdefinition, hvalidate⟩ |
    ⟨p, hload, hdefinition, hvalidate⟩
  · refine ⟨fun pretty json => ?_, fun pretty _ => ?_, fun h => ?_⟩
    · obtain ⟨complaint, hrun⟩ := hdefinition pretty
      rw [hrun, hvalidate]
    · obtain ⟨complaint, hrun⟩ := hdefinition pretty
      rw [hrun]
    · obtain ⟨complaint, hrun⟩ := hdefinition false
      rw [hrun] at h
      exact absurd h hcode
  · obtain ⟨text, c, htext, hc, hcheck, hp⟩ := load_eq_ok.mp hload
    have keyed := Configuration.wellKeyed_of_build hp
    simp only [hdefinition, hvalidate]
    refine ⟨fun _ _ => trivial, fun _ h => absurd rfl h, fun _ => ?_⟩
    refine ⟨text, c, p, p.expanded.toJson.pretty, p.expanded.toJson,
      p.steps.map fun s => s.toDocument.expand.toJson,
      p.steps.map fun s => "    " ++ s.summary host.terminal.colors, htext, hc, hcheck, hp, rfl, rfl,
      ?_, ?_, ?_, ?_, ?_, ?_⟩
    · rw [if_neg Bool.false_ne_true, String.append_empty]
      rfl
    · exact Pipeline.read?_expanded ⟨p, keyed⟩ Json.Style.blank_wire
    · exact Pipeline.read?_expanded ⟨p, keyed⟩ Json.Style.blank_pretty
    · rw [Pipeline.toJson_expanded]
      rfl
    · rw [if_neg Bool.false_ne_true, String.append_empty, List.length_map]
      rfl
    · rw [List.forall₂_map_left_iff, List.forall₂_map_right_iff, List.forall₂_same]
      exact fun s _ => announces_step host.terminal.colors s

/-- one file, with one step whose arguments refer to another -/
def referringFile : FileReader := fun _ => .ok
  ("name: P\nsteps:\n  - name: Train\n    type: Training\n    arguments:\n      Rate: 1e-7\n" ++
    "      Data: \"\x7b\x7b Steps.Load.out \x7d\x7d\"\n")

/-- a file whose bytes are no text -/
def garbledFile : FileReader := fun _ => .error .notText

/-- a terminal without colours, and files in YAML -/
def plainHost (read : FileReader) : Host := ⟨⟨false, false⟩, read, Configuration.ofYaml?⟩

theorem commands_agree_referringFile :
    (((Command.definition "p.yaml" false).outcome (plainHost referringFile)).exitCode = 0 ∧
      ∃ (p : Pipeline) (shown : String) (v : Json),
        ((Command.definition "p.yaml" false).outcome (plainHost referringFile)).output =
          p.definition ++ "\n" ∧
        ((Command.definition "p.yaml" true).outcome (plainHost referringFile)).output =
          shown ++ "\n" ∧
        Json.read? p.definition = some v ∧ Json.read? shown = some v) ∧
      ((Command.definition "p.yaml" true).outcome (plainHost garbledFile)).exitCode ≠ 0 ∧
      ((Command.definition "p.yaml" true).outcome (plainHost garbledFile)).output = "" := by
  have hcode : ((Command.definition "p.yaml" false).outcome (plainHost referringFile)).exitCode =
      0 := by decide +kernel
  have hfailed : ((Command.definition "p.yaml" true).outcome (plainHost garbledFile)).exitCode ≠
      0 := by decide
  obtain ⟨text, c, p, shown, v, entries, lines, -, -, -, -, hdefinition, hpretty, -, hread, hshown,
    -⟩ := (commands_agree (plainHost referringFile) "p.yaml").2.2 hcode
  exact ⟨⟨hcode, p, shown, v, hdefinition, hpretty, hread, hshown⟩, hfailed,
    (commands_agree (plainHost garbledFile) "p.yaml").2.1 true hfailed⟩

end Workflow.CommandLine
