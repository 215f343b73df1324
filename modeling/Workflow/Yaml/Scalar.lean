import Workflow.Json.Token
import Workflow.Yaml.Node

/-!
# Values of scalars

What a plain scalar without a tag stands for is told by its text: null, a boolean, a number or a
string. A standard tag asks for one of these, a tag of the writer's own has no value.

* `integerOf?`       the integer written by a text, in base 10, 16, 8 or 2;
* `floatOf?`         the float written by a text;
* `plainValue?`      the value of a plain scalar;
* `scalarValue?`     the value of a scalar with its tag.
-/

namespace Workflow.Yaml

open Decimal (Numeral)

def isNull (cs : List Char) : Bool :=
  cs == ['~'] || ["null", "Null", "NULL"].any fun s => s.toList == cs

def boolOf? (cs : List Char) : Option Bool :=
  if ["true", "True", "TRUE"].any fun s => s.toList == cs then some true
  else if ["false", "False", "FALSE"].any fun s => s.toList == cs then some false
  else none

/-! ## numbers -/

/-- the value of a digit in a base up to 16 -/
def digitOf? (base : Nat) (c : Char) : Option Nat := (Json.hexValue? c).filter (· < base)

/-- the number written by digits of a base, one at least -/
def naturalOf? (base : Nat) (ds : List Char) : Option Nat :=
  if ds.isEmpty then none
  else ds.foldl (fun n? d => n?.bind fun n => (digitOf? base d).map (base * n + ·)) (some 0)

/-- more than one digit, the first of them a zero -/
def hasLeadingZero (ds : List Char) : Bool :=
  1 < ds.length && ds.head? == some '0' && ds.all Char.isDigit

/-- the number written without a sign -/
def magnitudeOf? : List Char → Option Nat
  | '0' :: 'x' :: ds => naturalOf? 16 ds
  | '0' :: 'o' :: ds => naturalOf? 8 ds
  | '0' :: 'b' :: ds => naturalOf? 2 ds
  | ds => if hasLeadingZero ds then none else naturalOf? 10 ds

def integerOf? (cs : List Char) : Option Int :=
  let (sign?, body) := Numeral.splitSign cs
  (magnitudeOf? body).map fun n => if sign? = some '-' then -(n : Int) else n

/-- an integer that is written out of the range of numbers, but not so far that it is a float -/
def isWide (v : Int) : Bool :=
  -0x80000000000000000000000000000000 ≤ v && v ≤ 0xFFFFFFFFFFFFFFFFFFFFFFFFFFFFFFFF

inductive FloatValue where
  | finite (d : Decimal.Double)
  /-- infinite or not a number -/
  | special

/-- one sign at most -/
def isSpecial (cs : List Char) : Bool :=
  let (sign?, body) := Numeral.splitSign cs
  ([".inf", ".Inf", ".INF"].any fun s => s.toList == body) ||
    (sign?.isNone && [".nan", ".NaN", ".NAN"].any fun s => s.toList == body)

/-- the float written by a text; a number too large for one is none -/
def floatOf? (cs : List Char) : Option FloatValue :=
  if isSpecial cs then some .special
  else match Numeral.ofText? cs with
    | none => none
    | some n =>
      if n.whole.isEmpty && (n.fraction.getD []).isEmpty then none else n.toDouble?.map .finite

/-- there is no JSON number for a special float -/
def FloatValue.toJson : FloatValue → Json
  | finite d => .number (.float d)
  | special => .null

/-- an integer as a number, none if it is out of range -/
def integerJson? (v : Int) : Option Json := (Number.ofInt? v).map .number

/-! ## values -/

/-- the value of a text that is no integer -/
def otherValue (cs : List Char) : Json :=
  let body := (Numeral.splitSign cs).2
  match if hasLeadingZero body then none else floatOf? cs with
  | some f => f.toJson
  | none => .string (String.ofList cs)

/-- the value of a plain scalar; an integer out of range has none, unless it is a float -/
def plainValue? (cs : List Char) : Option Json :=
  if cs.isEmpty || isNull cs then some .null
  else match boolOf? cs with
    | some b => some (.bool b)
    | none =>
      match integerOf? cs with
      | some v => if isWide v then integerJson? v else some (otherValue cs)
      | none => some (otherValue cs)

/-- the value of a scalar with its tag; a standard tag does not look at quotes -/
def scalarValue? (tag? : Option Tag) (text : String) (plain : Bool) : Option Json :=
  let cs := text.toList
  match tag? with
  | none | some .garbled => if plain then plainValue? cs else some (.string text)
  | some .null => if isNull cs then some .null else none
  | some .bool => (boolOf? cs).map .bool
  | some .integer => (integerOf? cs).bind integerJson?
  | some .float => (floatOf? cs).map FloatValue.toJson
  | some (.own _) => none
  | some .other => some (.string text)

end Workflow.Yaml
