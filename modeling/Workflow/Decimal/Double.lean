/-!
# Finite binary64 numbers

A finite double is a sign and a rank: the finite non-negative doubles in increasing order are
numbered from zero, which is also what their bits say. Magnitudes are measured in units of
`2^-1074`, the least positive double, so that every magnitude is a natural number and rounding is a
statement about naturals.

* `tenPow`               the numerator of a power of ten;
* `Double`               a finite double, both zeros included;
* `Double.units`         the magnitude in units of `2^-1074`;
* `Double.nearest?`      the double nearest to a ratio, ties to the even mantissa, none on overflow;
* `Double.ofDecimal?`    the same for `c · 10^x`;
* `Double.same`          equality of numbers: the two zeros are the same number.
-/

namespace Workflow.Decimal

/-- the numerator of `10^x`; its denominator is `tenPow (-x)` -/
def tenPow (x : Int) : Nat := Nat.pow 10 x.toNat

/-- the number of finite doubles of one sign -/
def rankCount : Nat := 0x7FF <<< 52

structure Double where
  negative : Bool
  /-- the place among the non-negative finite doubles -/
  rank : Nat
  rank_lt : rank < rankCount
deriving DecidableEq, Repr

namespace Double

/-- the exponent of the last mantissa bit of the double of that rank, in units of `2^-1074` -/
def shift (rank : Nat) : Nat := rank >>> 52 - 1

/-- the mantissa of the double of that rank, hidden bit included -/
def mantissa (rank : Nat) : Nat := rank - shift rank <<< 52

/-- the magnitude of the double of that rank in units of `2^-1074` -/
def units (rank : Nat) : Nat := mantissa rank <<< shift rank

def zero (negative : Bool) : Double := ⟨negative, 0, by decide⟩

def isZero (d : Double) : Bool := d.rank == 0

/-- equality of numbers, which does not see the sign of a zero -/
def same (a b : Double) : Bool := a == b || (a.isZero && b.isZero)

/-- the quotient rounded to the nearest natural, a tie to the even one -/
def roundEven (num den : Nat) : Nat :=
  let q := num / den
  let r := num % den
  if 2 * r < den then q else if den < 2 * r then q + 1 else q + q % 2

/-- the rank of the double nearest to `num / den`, past the last rank on overflow -/
def nearestRank (num den : Nat) : Nat :=
  let scaled := num <<< 1074
  let e := (scaled / den).log2 - 52
  e <<< 52 + roundEven scaled (den <<< e)

/-- the double nearest to `± num / den`, unless it lies beyond the greatest finite one -/
def nearest? (negative : Bool) (num den : Nat) : Option Double :=
  if h : nearestRank num den < rankCount then some ⟨negative, nearestRank num den, h⟩ else none

/-- the double nearest to `± c · 10^x`; powers too large or too small to matter are not formed -/
def ofDecimal? (negative : Bool) (c : Nat) (x : Int) : Option Double :=
  let top := x + (Nat.toDigits 10 c).length
  if c = 0 ∨ top < -330 then some (zero negative)
  else if 310 < top then none
  else nearest? negative (c * tenPow x) (tenPow (-x))

theorem same_self (d : Double) : same d d = true := by simp [same]

theorem shift_shiftLeft_le (rank : Nat) : shift rank <<< 52 ≤ rank := by
  unfold shift
  rw [Nat.shiftLeft_eq, Nat.shiftRight_eq_div_pow]
  omega

theorem shift_add_mantissa (rank : Nat) : shift rank <<< 52 + mantissa rank = rank :=
  Nat.add_sub_of_le (shift_shiftLeft_le rank)

/-- on an exact tie the result is even -/
theorem roundEven_tie {num den : Nat} (h : 2 * (num % den) = den) : roundEven num den % 2 = 0 := by
  simp only [roundEven, h, Nat.lt_irrefl, if_false]
  omega

/-- the rounded quotient is within half a unit of the exact one -/
theorem roundEven_near {num den : Nat} (h : 0 < den) :
    2 * num ≤ (2 * roundEven num den + 1) * den ∧ 2 * roundEven num den * den ≤ 2 * num + den := by
  have hdiv := Nat.div_add_mod num den
  have hmod := Nat.mod_lt num h
  have hcomm : num / den * den = den * (num / den) := Nat.mul_comm _ _
  simp only [roundEven]
  split
  · constructor <;> (simp only [Nat.add_mul, Nat.mul_assoc, hcomm]; omega)
  · split
    · constructor <;> (simp only [Nat.add_mul, Nat.mul_add, Nat.mul_assoc, hcomm]; omega)
    · rcases Nat.mod_two_eq_zero_or_one (num / den) with he | he <;> rw [he] <;> constructor <;>
        (simp only [Nat.add_mul, Nat.mul_add, Nat.mul_assoc, hcomm]; omega)

end Double

end Workflow.Decimal
