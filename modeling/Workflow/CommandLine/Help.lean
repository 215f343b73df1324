import Workflow.CommandLine.Arguments

/-!
# Help

The text about the program or a command says what it is for and how it is called. Commands and
options follow in tables of two columns, as wide on the left as the longest entry.

* `HelpTable`      entries with what they mean, under a heading;
* `Topic.about`, `Topic.usage`, `Topic.tables`   the parts of a text;
* `Topic.lines`    the whole text.
-/

namespace Workflow.CommandLine

namespace CommandOption

/-- the option as it is written, with its letter or room for one -/
def entry (o : CommandOption) : String :=
  let letter := match o.short? with
    | some c => "-" ++ String.singleton c ++ ", "
    | none => "    "
  letter ++ "--" ++ o.long ++ if o.takesValue then " <FILE>" else ""

def meaning : CommandOption → String
  | file => "Path to pipeline YAML file"
  | pretty => "Pretty-print instead of the exact wire string"
  | json => "Also print the resolved request document as JSON"
  | verbose => "Enable verbose logging"
  | help => "Print help"
  | version => "Print version"

end CommandOption

structure HelpTable where
  heading : String
  /-- entries with what they mean -/
  rows : List (String × String)

namespace HelpTable

/-- the width of the left column -/
def width (t : HelpTable) : Nat := t.rows.foldr (fun row w => max row.1.length w) 0

def lines (t : HelpTable) : List String :=
  (t.heading ++ ":") :: t.rows.map fun row =>
    "  " ++ String.ofList (row.1.toList.rightpad t.width ' ') ++ "  " ++ row.2

end HelpTable

/-- the options of a level -/
def Level.table (l : Level) : HelpTable :=
  ⟨"Options", l.options.map fun o => (o.entry, o.meaning)⟩

namespace Topic

def about : Topic → String
  | program => "Build and inspect workflow pipeline definitions"
  | definition => "Print the definition sent to the workflow service"
  | validate => "Validate a pipeline configuration"
  | help => "Print this message or the help of the given subcommand(s)"

def usage : Topic → String
  | program => "pipeline-workflow [OPTIONS] <COMMAND>"
  | definition => "pipeline-workflow definition [OPTIONS] --file <FILE>"
  | validate => "pipeline-workflow validate [OPTIONS] --file <FILE>"
  | help => "pipeline-workflow help [COMMAND]..."

def tables : Topic → List HelpTable
  | program => [⟨"Commands", commands.map fun c => (c.1, c.2.about)⟩, Level.program.table]
  | definition => [Level.definition.table]
  | validate => [Level.validate.table]
  | help => [⟨"Arguments", [("[COMMAND]...", "Print help for the subcommand(s)")]⟩]

def lines (t : Topic) : List String :=
  [t.about, "", "Usage: " ++ t.usage] ++ t.tables.flatMap fun table => "" :: table.lines

end Topic

end Workflow.CommandLine
