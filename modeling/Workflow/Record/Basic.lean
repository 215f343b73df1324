import Workflow.Json.Keyed
import Workflow.Record.Fault

/-!
# Records

A record is read from an object by the names of its members, or from an array by their order. In an
object the members may come in any order and others are passed over; the first bad one in the order
of the object is reported, and a missing one only if all that are there are good. An array may leave
out members at its end that have a value to fall back on.

* `Reading`                reading a JSON value as something;
* `text`, `json`, `list`, `optional`, `choice`, `moment`, `map`   the readings of the library;
* `Members`                the members of a record, one after another;
* `Members.reading`        the reading of the record.
-/

namespace Workflow.Record

/-- reading a value as something, or saying what is wrong with it -/
abbrev Reading (α : Type) := Json → Except Fault α

def text : Reading String
  | .string s => .ok s
  | v => .error (.wrongType v "a string")

/-- any value, its objects put together as maps -/
def json : Reading Json.Keyed := fun v => .ok v.keyed

/-- the readings of the items in order -/
def items {α : Type} (item : Reading α) : List Json → Except Fault (List α)
  | [] => .ok []
  | v :: vs =>
    match item v with
    | .error f => .error f
    | .ok x =>
      match items item vs with
      | .error f => .error f
      | .ok xs => .ok (x :: xs)

def list {α : Type} (item : Reading α) : Reading (List α)
  | .array vs => items item vs
  | v => .error (.wrongType v "a sequence")

def map : Reading Json.KeyedFields
  | .object fields => .ok (Json.keyedFields fields)
  | v => .error (.wrongType v "a map")

def optional {α : Type} (some? : Reading α) : Reading (Option α)
  | .null => .ok none
  | v => match some? v with
    | .ok x => .ok (some x)
    | .error f => .error f

def moment : Reading Calendar.Moment
  | .string s => match Calendar.Moment.ofText s with
    | .ok m => .ok m
    | .error problem => .error (.badMoment problem)
  | v => .error (.wrongType v "an RFC 3339 formatted date and time string")

/-- one of some named choices: its name, or an object that gives null to its name -/
def choice {α : Type} (choices : List (String × α)) : Reading α
  | .string s => match Fields.get? s choices with
    | some x => .ok x
    | none => .error (.unknownChoice s (Fields.keys choices))
  | .object [(s, v)] => match Fields.get? s choices, v with
    | none, _ => .error (.unknownChoice s (Fields.keys choices))
    | some x, .null => .ok x
    | some _, v => .error (.wrongType v "unit")
  | .object _ => .error .manyKeyed
  | v => .error (.wrongType v "string or map")

/-- what is given of a record, by name, and what to say of a member that is not given -/
structure Given where
  value? : String → Option Json
  missing : String → Fault

/-- the members of a record in the order of their declaration -/
structure Members (α : Type) where
  /-- each name with the reading of its value -/
  checks : List (String × (Json → Except Fault Unit))
  build : Given → Except Fault α

namespace Members

variable {α β : Type}

def pure (x : α) : Members α := ⟨[], fun _ => .ok x⟩

/-- the members of both, those of the first in front -/
def seq (f : Members (α → β)) (m : Members α) : Members β where
  checks := f.checks ++ m.checks
  build given :=
    match f.build given with
    | .error e => .error e
    | .ok g =>
      match m.build given with
      | .error e => .error e
      | .ok x => .ok (g x)

instance : Seq Members := ⟨fun f m => f.seq (m ())⟩

/-- the reading without its result -/
def checkOf (reading : Reading α) (v : Json) : Except Fault Unit :=
  match reading v with
  | .ok _ => .ok ()
  | .error f => .error f

/-- a member that has to be there -/
def required (name : String) (reading : Reading α) : Members α where
  checks := [(name, checkOf reading)]
  build given :=
    match given.value? name with
    | some v => reading v
    | none => .error (given.missing name)

/-- a member with a value to fall back on -/
def fallback (name : String) (reading : Reading α) (value : α) : Members α where
  checks := [(name, checkOf reading)]
  build given :=
    match given.value? name with
    | some v => reading v
    | none => .ok value

def optional (name : String) (reading : Reading α) : Members (Option α) :=
  fallback name (Record.optional reading) none

/-- the first bad one of the members that are there -/
def firstFault (checks : List (String × (Json → Except Fault Unit))) :
    List (String × Json) → Except Fault Unit
  | [] => .ok ()
  | (k, v) :: rest =>
    match Fields.get? k checks with
    | none => firstFault checks rest
    | some check =>
      match check v with
      | .error f => .error f
      | .ok () => firstFault checks rest

/-- the record from its fields -/
def ofFields (m : Members α) (fields : List (String × Json)) (missing : String → Fault) :
    Except Fault α :=
  match firstFault m.checks fields with
  | .error f => .error f
  | .ok () => m.build ⟨fun name => Fields.get? name fields, missing⟩

/-- the record of that name, from an object or from an array -/
def reading (m : Members α) (record : String) : Reading α
  | .object fields => m.ofFields fields .missingMember
  | .array vs =>
    let names := Fields.keys m.checks
    let short (name : String) : Fault := .shortArray (names.idxOf name) record names.length
    match m.ofFields (names.zip vs) short with
    | .error f => .error f
    | .ok x => if names.length < vs.length then .error (.longArray vs.length) else .ok x
  | v => .error (.wrongType v ("struct " ++ record))

end Members

end Workflow.Record
