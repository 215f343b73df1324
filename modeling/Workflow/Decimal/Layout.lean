import Workflow.Decimal.Notation
import Workflow.Text.Slice

/-!
# Layout of a decimal number

Digits and an exponent become text either positionally or with an explicit exponent. A `Layout`
states which exponents are written positionally and how wide an exponent is at least; a whole
positional number always keeps `.0`, so the text of a float is never that of an integer.

The digits are cut where the point stands and zeros are added up to it. A cut beyond the digits or
a negative number of zeros gives no text at all.

* `Layout`               the decisions;
* `Layout.text?`         the text of a number;
* `Layout.ofNotation?`   the text of a number that is given by its scientific notation.
-/

namespace Workflow.Decimal

structure Layout where
  /-- the least exponent that is written positionally -/
  plainFrom : Int
  /-- the first exponent above that is not -/
  plainBelow : Int
  /-- the least number of exponent digits -/
  exponentWidth : Nat
deriving DecidableEq, Repr

/-- the digits of `n`, with zeros in front up to `width` -/
def padded (width n : Nat) : List Char :=
  List.replicate (width - (Nat.toDigits 10 n).length) '0' ++ Nat.toDigits 10 n

namespace Layout

open Text

/-- the difference, none if it is negative -/
def minus? (m n : Nat) : Option Nat := if n ≤ m then some (m - n) else none

/-- the point stands before, inside or after the digits -/
def positional? (digits : List Char) (e : Int) : Option (List Char) :=
  if e < 0 then do
    let zeros ← minus? (-e).toNat 1
    return '0' :: '.' :: (List.replicate zeros '0' ++ digits)
  else
    let whole := e.toNat + 1
    if byteLength digits ≤ whole then do
      let zeros ← minus? whole (byteLength digits)
      return digits ++ List.replicate zeros '0' ++ ['.', '0']
    else do
      let before ← slice? 0 whole digits
      let after ← slice? whole (byteLength digits) digits
      return before ++ '.' :: after

/-- one digit before the point, and a signed exponent -/
def exponential? (l : Layout) (digits : List Char) (e : Int) : Option (List Char) := do
  let first ← slice? 0 1 digits
  let others ← slice? 1 (byteLength digits) digits
  let fraction := if others = [] then [] else '.' :: others
  let sign := if e < 0 then '-' else '+'
  return first ++ fraction ++ 'e' :: sign :: padded l.exponentWidth e.natAbs

/-- the text of a magnitude -/
def magnitude? (l : Layout) (digits : List Char) (e : Int) : Option (List Char) :=
  if l.plainFrom ≤ e ∧ e < l.plainBelow then positional? digits e else l.exponential? digits e

def text? (l : Layout) (s : Scientific) : Option (List Char) :=
  (l.magnitude? s.digits s.exponent).map ((if s.negative then ['-'] else []) ++ ·)

/-- the text of the number with that scientific notation; if there is none, it stays as it is -/
def ofNotation? (l : Layout) (cs : List Char) : Option (List Char) :=
  match Scientific.ofWritten? cs with
  | none => some cs
  | some s => l.text? s

end Layout

end Workflow.Decimal
