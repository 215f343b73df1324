import Workflow.Calendar.Moment
import Workflow.Json.Style
import Workflow.Text.Quoted

/-!
# Faults of a reading

A value that is to be read as something else may be of another form. A `Fault` says what is wrong,
and `Fault.message` says it in words.

* `describe`        how a value is called in a complaint;
* `Fault`           the ways a reading fails;
* `Fault.message`   their wording.
-/

namespace Workflow.Record

def describe : Json → String
  | .null => "null"
  | .bool true => "boolean `true`"
  | .bool false => "boolean `false`"
  | .number (.integer v h) => "integer `" ++ Json.compact (.number (.integer v h)) ++ "`"
  | .number (.float d) => "floating point `" ++ Json.compact (.number (.float d)) ++ "`"
  | .string s => "string " ++ Text.quoted s
  | .array _ => "sequence"
  | .object _ => "map"

inductive Fault where
  /-- a member of a record is not there -/
  | missingMember (name : String)
  /-- a value of another type -/
  | wrongType (found : Json) (expected : String)
  /-- a name that is none of the choices -/
  | unknownChoice (found : String) (choices : List String)
  /-- a choice is an object with one key, not with none or several -/
  | manyKeyed
  /-- a record given as an array ends before a member that it needs -/
  | shortArray (length : Nat) (record : String) (members : Nat)
  /-- a record given as an array goes on after its last member -/
  | longArray (length : Nat)
  /-- a text that is no moment in time -/
  | badMoment (problem : Calendar.Problem)

def decimalText (n : Nat) : String := String.ofList (Nat.toDigits 10 n)

namespace Fault

def choiceList (choices : List String) : String :=
  String.intercalate ", " (choices.map fun c => "`" ++ c ++ "`")

def message : Fault → String
  | missingMember name => "missing field `" ++ name ++ "`"
  | wrongType found expected => "invalid type: " ++ describe found ++ ", expected " ++ expected
  | unknownChoice found choices =>
    "unknown variant `" ++ found ++ "`, expected one of " ++ choiceList choices
  | manyKeyed => "invalid value: map, expected map with a single key"
  | shortArray length record members =>
    "invalid length " ++ decimalText length ++ ", expected struct " ++ record ++ " with " ++
      decimalText members ++ (if members = 1 then " element" else " elements")
  | longArray length =>
    "invalid length " ++ decimalText length ++ ", expected fewer elements in array"
  | badMoment problem => problem.message

end Fault

end Workflow.Record
