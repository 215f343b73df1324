import Workflow.Decimal.Numeral
import Workflow.Decimal.Scientific

/-!
# Scientific notation

A number in scientific form is written with one digit before the point and a plain exponent, as in
`-1.25e-7`. From this text its sign, its digits and its exponent are taken apart again.

* `Scientific.written`      the notation of a number;
* `Scientific.int32?`       an integer of 32 bits with its sign;
* `Scientific.ofWritten?`   the number that is read from a notation.
-/

namespace Workflow.Decimal.Scientific

/-- the digits with a point behind the first one if there are more -/
def pointed (ds : List Char) : List Char :=
  ds.take 1 ++ if ds.length ≤ 1 then [] else '.' :: ds.drop 1

/-- the scientific notation, as in `-1.25e-7` -/
def written (s : Scientific) : List Char :=
  (if s.negative then ['-'] else []) ++ pointed s.digits ++
    'e' :: ((if s.exponent < 0 then ['-'] else []) ++ Nat.toDigits 10 s.exponent.natAbs)

/-- what fits 32 bits with a sign -/
def Fits32 (v : Int) : Prop := -0x80000000 ≤ v ∧ v < 0x80000000

instance (v : Int) : Decidable (Fits32 v) := by
  unfold Fits32
  infer_instance

/-- digits with an optional sign, none if the integer does not fit 32 bits -/
def int32? (cs : List Char) : Option Int :=
  let (sign, ds) := Numeral.splitSign cs
  let magnitude : Int := Nat.ofDigitChars 10 ds 0
  let v := if sign = some '-' then -magnitude else magnitude
  if ds ≠ [] ∧ ds.all Char.isDigit ∧ Fits32 v then some v else none

/-- reads scientific notation: the digits up to the first `e`, and the exponent behind it -/
def ofWritten? (cs : List Char) : Option Scientific :=
  let front := cs.takeWhile (· != 'e')
  match cs.dropWhile (· != 'e') with
  | [] => none
  | _ :: exponent =>
    let negative := front.head? == some '-'
    let unsigned := if negative then front.drop 1 else front
    (int32? exponent).map (⟨negative, unsigned.filter Char.isDigit, ·⟩)

end Workflow.Decimal.Scientific
