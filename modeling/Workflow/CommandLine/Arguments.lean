/-!
# Command line arguments

The command line has two levels, the program and a command, each with options of its own. An option
with a value takes it from the same argument or from the next one; it is recorded only when
something else comes, so a missing value or a repetition shows then and not before.

* `Command`, `Invocation`   what is asked for;
* `Topic`                   what help is asked about;
* `Stop`                    why nothing is done instead;
* `CommandOption`           the options by name;
* `Level`                   the options of a level, and whether commands may follow;
* `Level.scan`              the options of a level and the command after them, if there is one;
* `Invocation.ofArguments`  the invocation that the arguments are.
-/

namespace Workflow.CommandLine

inductive Command where
  | definition (file : String) (pretty : Bool)
  | validate (file : String) (json : Bool)
deriving DecidableEq, Repr

/-- the file that a command reads -/
def Command.file : Command → String
  | .definition file _ | .validate file _ => file

structure Invocation where
  command : Command
  verbose : Bool
deriving DecidableEq, Repr

inductive Topic where
  | program
  | definition
  | validate
  | help
deriving DecidableEq, Repr

inductive Stop where
  | help (topic : Topic)
  | version
  /-- there are no arguments at all -/
  | noArguments
  | missingCommand
  | unknownCommand
  | unknownArgument
  /-- an option that has to be given is not -/
  | missingOption
  /-- an option is without its value -/
  | missingValue
  /-- a value is given to an option that takes none -/
  | surplusValue
  /-- an option is given twice -/
  | repeatedOption
deriving DecidableEq, Repr

inductive CommandOption where
  | file
  | pretty
  | json
  | verbose
  | help
  | version
deriving DecidableEq, Repr

namespace CommandOption

def long : CommandOption → String
  | file => "file"
  | pretty => "pretty"
  | json => "json"
  | verbose => "verbose"
  | help => "help"
  | version => "version"

def short? : CommandOption → Option Char
  | file => some 'f'
  | pretty | json => none
  | verbose => some 'v'
  | help => some 'h'
  | version => some 'V'

def takesValue : CommandOption → Bool
  | file => true
  | _ => false

end CommandOption

/-- the commands by name; `help` is one of them -/
def commands : List (String × Topic) :=
  [("definition", .definition), ("validate", .validate), ("help", .help)]

def isCommand (name : String) : Bool := commands.any (·.1 == name)

structure Level where
  topic : Topic
  /-- in the order in which they are told about -/
  options : List CommandOption
  hasCommands : Bool

namespace Level

def program : Level := ⟨.program, [.verbose, .help, .version], true⟩

def definition : Level := ⟨.definition, [.file, .verbose, .pretty, .help], false⟩

def validate : Level := ⟨.validate, [.file, .verbose, .json, .help], false⟩

def long? (l : Level) (name : String) : Option CommandOption :=
  l.options.find? fun o => o.long == name

def short? (l : Level) (c : Char) : Option CommandOption :=
  l.options.find? fun o => o.short? == some c

end Level

/-- the options that were given on a level -/
structure Given where
  flags : List CommandOption
  values : List (CommandOption × String)
  /-- the last option with a value, not recorded yet, and its value once it is there -/
  pending? : Option (CommandOption × Option String)
deriving DecidableEq, Repr

namespace Given

def nothing : Given := ⟨[], [], none⟩

def has (g : Given) (o : CommandOption) : Bool := g.flags.contains o

/-- an option still waits for its value -/
def awaits (g : Given) : Bool := g.pending?.any fun p => p.2.isNone

def recordValue (g : Given) (o : CommandOption) (value : String) : Except Stop Given :=
  if (g.values.lookup o).isSome then .error .repeatedOption
  else .ok { g with values := (o, value) :: g.values }

/-- records the option that is pending -/
def settle (g : Given) : Except Stop Given :=
  match g.pending? with
  | none => .ok g
  | some (_, none) => .error .missingValue
  | some (o, some value) => { g with pending? := none }.recordValue o value

/-- an option without value; help is about the level -/
def flag (g : Given) (topic : Topic) (o : CommandOption) : Except Stop Given := do
  let g ← g.settle
  match o with
  | .help => .error (.help topic)
  | .version => .error .version
  | o => if g.flags.contains o then .error .repeatedOption else .ok { g with flags := o :: g.flags }

/-- an option with a value that may stand in the same argument -/
def option (g : Given) (o : CommandOption) (value? : Option String) : Except Stop Given := do
  let g ← g.settle
  match value? with
  | some value => g.recordValue o value
  | none => .ok { g with pending? := some (o, none) }

/-- the value that an option waited for -/
def receive (g : Given) (value : String) : Given :=
  { g with pending? := g.pending?.map fun p => (p.1, some value) }

end Given

namespace Level

/-- a text up to its first equals sign, and what stands after the sign -/
def splitEquals (cs : List Char) : List Char × Option (List Char) :=
  match cs.dropWhile (· != '=') with
  | _ :: value => (cs.takeWhile (· != '='), some value)
  | [] => (cs, none)

/-- an argument after two hyphens -/
def long (l : Level) (g : Given) (cs : List Char) : Except Stop Given :=
  let (name, value?) := splitEquals cs
  match l.long? (String.ofList name) with
  | none => .error .unknownArgument
  | some o =>
    if o.takesValue then g.option o (value?.map String.ofList)
    else if value?.isSome then .error .surplusValue
    else g.flag l.topic o

/-- an argument after one hyphen: options without value, and perhaps one with its value -/
def short (l : Level) (g : Given) : List Char → Except Stop Given
  | [] => .ok g
  | c :: cs =>
    match l.short? c with
    | none => .error .unknownArgument
    | some o =>
      if o.takesValue then
        match cs with
        | [] => g.option o none
        | '=' :: value => g.option o (some (String.ofList value))
        | value => g.option o (some (String.ofList value))
      else
        match g.flag l.topic o with
        | .ok g => l.short g cs
        | .error stop => .error stop

/-- what is wrong with an argument that is neither option nor value -/
def stray (l : Level) (afterHyphens : Bool) (a : String) : Stop :=
  if l.hasCommands && !(afterHyphens && isCommand a) then .unknownCommand
  else .unknownArgument

/-- the options in front; after two bare hyphens nothing is an option or a command -/
def scan (l : Level) (afterHyphens : Bool) (g : Given) :
    List String → Except Stop (Given × Option (String × List String))
  | [] => do return (← g.settle, none)
  | a :: rest =>
    if afterHyphens then .error (l.stray true a)
    else if l.hasCommands && !g.awaits && isCommand a then .ok (g, some (a, rest))
    else match a.toList with
      | ['-', '-'] => l.scan true g rest
      | '-' :: '-' :: cs =>
        match l.long g cs with
        | .ok g => l.scan false g rest
        | .error stop => .error stop
      | '-' :: c :: cs =>
        match l.short g (c :: cs) with
        | .ok g => l.scan false g rest
        | .error stop => .error stop
      | _ => if g.awaits then l.scan false (g.receive a) rest else .error (l.stray false a)

end Level

/-- what the command `help` is asked about: nothing or one command -/
def helpStop : List String → Stop
  | [] => .help .program
  | [name] =>
    match commands.lookup name with
    | some topic => .help topic
    | none => .unknownCommand
  | _ => .unknownCommand

/-- the options of a command and its file -/
def commandOptions (l : Level) (args : List String) : Except Stop (Given × String) := do
  let (g, _) ← l.scan false .nothing args
  match g.values.lookup .file with
  | some file => return (g, file)
  | none => .error .missingOption

namespace Invocation

/-- the invocation that the arguments are, or why they are none -/
def ofArguments (args : List String) : Except Stop Invocation := do
  let (g, command?) ← Level.program.scan false .nothing args
  match command? with
  | none => .error (if g.flags.isEmpty then .noArguments else .missingCommand)
  | some ("definition", rest) =>
    let (own, file) ← commandOptions .definition rest
    return ⟨.definition file (own.has .pretty), g.has .verbose || own.has .verbose⟩
  | some ("validate", rest) =>
    let (own, file) ← commandOptions .validate rest
    return ⟨.validate file (own.has .json), g.has .verbose || own.has .verbose⟩
  | some (_, rest) => .error (helpStop rest)

end Invocation

end Workflow.CommandLine
