import Workflow.Decimal.Double

/-!
# Written numbers

A numeral is what a number looks like on paper: a sign, whole digits, an optional fraction and an
optional exponent. Each notation that uses it says which of these parts it asks for.

* `Numeral`             the parts of a written number;
* `Numeral.ofText?`     splits a text that is nothing but one numeral;
* `Numeral.toDouble?`   the nearest double, none on overflow.
-/

namespace Workflow.Decimal

structure Numeral where
  /-- the sign, if one is written -/
  sign : Option Char
  whole : List Char
  /-- the digits after the point, if there is a point -/
  fraction : Option (List Char)
  /-- sign and digits of the exponent, if there is an exponent mark -/
  exponent : Option (Option Char × List Char)
deriving DecidableEq, Repr

namespace Numeral

def isSign (c : Char) : Bool := c == '+' || c == '-'

/-- a sign in front, if there is one, and the rest -/
def splitSign : List Char → Option Char × List Char
  | [] => (none, [])
  | c :: cs => if isSign c then (some c, cs) else (none, c :: cs)

/-- the exponent part: nothing, or a mark, an optional sign and digits to the end -/
def exponentOf? : List Char → Option (Option (Option Char × List Char))
  | [] => some none
  | c :: cs =>
    if c = 'e' ∨ c = 'E' then
      let (sign, digits) := splitSign cs
      if digits ≠ [] ∧ digits.all Char.isDigit then some (some (sign, digits)) else none
    else none

/-- the parts of a text that is a numeral from end to end -/
def ofText? (cs : List Char) : Option Numeral :=
  let (sign, cs) := splitSign cs
  let whole := cs.takeWhile Char.isDigit
  match cs.dropWhile Char.isDigit with
  | '.' :: rest =>
    (exponentOf? (rest.dropWhile Char.isDigit)).map
      (⟨sign, whole, some (rest.takeWhile Char.isDigit), ·⟩)
  | rest => (exponentOf? rest).map (⟨sign, whole, none, ·⟩)

def negative (n : Numeral) : Bool := n.sign == some '-'

/-- all digits before the exponent as one number -/
def coefficient (n : Numeral) : Nat := Nat.ofDigitChars 10 (n.whole ++ n.fraction.getD []) 0

/-- the power of ten of the last digit -/
def scale (n : Numeral) : Int :=
  let e : Int := match n.exponent with
    | none => 0
    | some (sign, digits) =>
      let e : Int := Nat.ofDigitChars 10 digits 0
      if sign = some '-' then -e else e
  e - (n.fraction.getD []).length

/-- a number without point and exponent mark -/
def isWhole (n : Numeral) : Bool := n.fraction.isNone && n.exponent.isNone

/-- the double nearest to the written number, none if it is beyond the finite ones -/
def toDouble? (n : Numeral) : Option Double := Double.ofDecimal? n.negative n.coefficient n.scale

end Numeral

end Workflow.Decimal
