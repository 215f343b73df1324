/-!
# Decimal numbers in scientific form

A number `± d₁.d₂…dₙ · 10^e`, its digits held as characters with the leading one first.

* `Scientific`             sign, digits and exponent of the leading digit;
* `Scientific.Canonical`   no leading zero but in zero itself, no zero at the end of more digits;
* `Scientific.coefficient`, `Scientific.scale`   the number is `coefficient · 10^scale`;
* `stripZeros`             digits without the zeros at their end, one digit at least.
-/

namespace Workflow.Decimal

structure Scientific where
  negative : Bool
  /-- most significant first, never empty -/
  digits : List Char
  /-- the power of ten of the first digit -/
  exponent : Int
deriving DecidableEq, Repr

namespace Scientific

def coefficient (s : Scientific) : Nat := Nat.ofDigitChars 10 s.digits 0

def scale (s : Scientific) : Int := s.exponent - (s.digits.length - 1 : Nat)

/-- zero is the one digit `0` at exponent 0; any other number has no zero at either end -/
structure Canonical (s : Scientific) : Prop where
  digits_ne_nil : s.digits ≠ []
  all_digits : ∀ c ∈ s.digits, c.isDigit = true
  zero : s.digits.head? = some '0' → s.digits = ['0'] ∧ s.exponent = 0
  last : 1 < s.digits.length → s.digits.getLast? ≠ some '0'

end Scientific

/-- the digits without the zeros at the end; the first digit always stays -/
def stripZeros : List Char → List Char
  | [] => []
  | d :: rest => d :: (rest.reverse.dropWhile (· == '0')).reverse

theorem stripZeros_ne_nil {ds : List Char} (h : ds ≠ []) : stripZeros ds ≠ [] := by
  cases ds with
  | nil => exact absurd rfl h
  | cons d rest => simp [stripZeros]

theorem head?_stripZeros (ds : List Char) : (stripZeros ds).head? = ds.head? := by
  cases ds <;> rfl

theorem mem_of_mem_stripZeros {c : Char} {ds : List Char} (h : c ∈ stripZeros ds) : c ∈ ds := by
  cases ds with
  | nil => simp [stripZeros] at h
  | cons d rest =>
    rcases List.mem_cons.1 h with rfl | h
    · exact List.mem_cons_self
    · exact List.mem_cons_of_mem _
        (List.mem_reverse.1 ((List.dropWhile_sublist _).subset (List.mem_reverse.1 h)))

end Workflow.Decimal
