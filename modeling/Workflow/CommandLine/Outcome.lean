import Workflow.CommandLine.Help
import Workflow.CommandLine.Report
import Workflow.Config.Build
import Workflow.Config.Source

/-!
# The program

The program reads one file, builds the pipeline in it and prints what was asked for. It is a function
of its arguments and of what it runs on: a terminal, a function that reads files, and a function that
takes the text of a file for a configuration.

* `FileError`       why a file cannot be read;
* `LoadError`       why there is no pipeline in a file;
* `Terminal`        how texts are marked and painted;
* `Host`            what the program runs on;
* `load`            the pipeline in a file;
* `Outcome`         exit code and texts;
* `runOn`           the outcome of some arguments on a host;
* `run`             the same for files in YAML.
-/

namespace Workflow.CommandLine

inductive FileError where
  /-- a number and a text of the operating system -/
  | system (code : Nat) (text : String)
  /-- the bytes are no text -/
  | notText
deriving DecidableEq, Repr

def FileError.message : FileError → String
  | system code text => text ++ " (os error " ++ Record.decimalText code ++ ")"
  | notText => "stream did not contain valid UTF-8"

inductive LoadError where
  | unreadable (file : String) (cause : FileError)
  /-- the text is no configuration -/
  | malformed
  | refused (cause : ConfigError)

/-- the words from the outermost to the cause -/
def LoadError.chain : LoadError → String
  | unreadable file cause => "Failed to read " ++ file ++ ": " ++ cause.message
  | malformed => "the text is not a pipeline configuration"
  | refused cause => cause.chain

/-- reads files by name -/
abbrev FileReader := String → Except FileError String

/-- the pipeline of a configuration, which has to pass the check too -/
def pipelineOf (c : Configuration) : Except LoadError Pipeline :=
  match c.check with
  | .error e => .error (.refused e)
  | .ok () =>
    match c.build with
    | .error e => .error (.refused e)
    | .ok p => .ok p

structure Terminal where
  /-- pictures may be used as marks -/
  pictures : Bool
  colors : Bool

namespace Terminal

/-- in front of what is being done -/
def doing (t : Terminal) : String := if t.pictures then "ℹ️  " else "i "

/-- in front of a success -/
def success (t : Terminal) : String := if t.pictures then "✅ " else "✓ "

/-- in front of a failure -/
def failure (t : Terminal) : String := if t.pictures then "❌ " else "✗ "

end Terminal

/-- what the program runs on -/
structure Host where
  terminal : Terminal
  read : FileReader
  /-- the configuration that a text is, if it is one -/
  parse : String → Option Configuration

def load (host : Host) (file : String) : Except LoadError Pipeline :=
  match host.read file with
  | .error cause => .error (.unreadable file cause)
  | .ok text =>
    match host.parse text with
    | none => .error .malformed
    | some c => pipelineOf c

structure Outcome where
  exitCode : Nat
  output : String
  complaint : String
deriving DecidableEq, Repr

/-- lines with a break after each -/
def linesText (lines : List String) : String := String.join (lines.map (· ++ "\n"))

def versionText : String := "pipeline-workflow 0.1.0"

/-- the lines that say why nothing is done -/
def Stop.complaint : Stop → List String
  | help _ | version => []
  | noArguments => Topic.program.lines
  | missingCommand => ["error: a command is required"]
  | unknownCommand => ["error: unrecognized command"]
  | unknownArgument => ["error: unexpected argument"]
  | missingOption => ["error: --file <FILE> is required"]
  | missingValue => ["error: a value is required for --file <FILE>"]
  | surplusValue => ["error: unexpected value"]
  | repeatedOption => ["error: an option cannot be used multiple times"]

/-- the outcome if nothing is done -/
def Stop.outcome : Stop → Outcome
  | .help topic => ⟨0, linesText topic.lines, ""⟩
  | .version => ⟨0, linesText [versionText], ""⟩
  | stop => ⟨2, "", linesText stop.complaint⟩

/-- prints what is sent to the service for a pipeline, on one line or indented -/
def definitionOutcome (host : Host) (file : String) (pretty : Bool) : Outcome :=
  match load host file with
  | .error e => ⟨1, "", linesText ["Error: " ++ e.chain]⟩
  | .ok p => ⟨0, linesText [if pretty then p.expanded.toJson.pretty else p.definition], ""⟩

/-- the lines about a pipeline -/
def pipelineLines (t : Terminal) (p : Pipeline) : List String :=
  let count (n : Nat) : String := Paint.cyan.on t.colors (Record.decimalText n)
  [t.success ++ " Pipeline configuration is valid!", "  Name: " ++ Paint.bold.on t.colors p.name,
      "  Parameters: " ++ count p.parameters.length] ++
    (p.parameters.map fun q => "    " ++ q.summary t.colors) ++
    ("  Steps: " ++ count p.steps.length) :: p.steps.map fun s => "    " ++ s.summary t.colors

/-- says whether a configuration is valid and what is in it -/
def validateOutcome (host : Host) (file : String) (json : Bool) : Outcome :=
  let t := host.terminal
  let first := t.doing ++ " Validating pipeline..."
  match load host file with
  | .error e =>
    let lines := [first, t.failure ++ " Validation failed:", "  " ++ Paint.red.on t.colors e.chain]
    ⟨1, linesText lines, ""⟩
  | .ok p =>
    let last := if json then ["", p.expanded.toJson.pretty] else []
    ⟨0, linesText (first :: (pipelineLines t p ++ last)), ""⟩

def runOn (host : Host) (args : List String) : Outcome :=
  match Invocation.ofArguments args with
  | .error stop => stop.outcome
  | .ok i =>
    match i.command with
    | .definition file pretty => definitionOutcome host file pretty
    | .validate file json => validateOutcome host file json

def run (t : Terminal) (read : FileReader) (args : List String) : Outcome :=
  runOn ⟨t, read, Configuration.ofYaml?⟩ args

end Workflow.CommandLine
